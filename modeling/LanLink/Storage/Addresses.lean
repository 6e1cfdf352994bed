import LanLink.Lib.Gaps
import LanLink.Storage.Invariant
/-!
# Free addresses

The allocators walk the occupied addresses in order and take the first gap. So
a network gets the smallest free subnet of the pool, a member the smallest free
host address of its network's `/24`, and they fail only when there is none.
-/
open LanLink.Lib

namespace LanLink

/-! ## Lengths of names -/

theorem sqlLengthFrom_le (b : Bool) (t : Text) : sqlLengthFrom b t ≤ t.length := by
  induction t generalizing b with
  | nil => exact le_rfl
  | cons c t ih =>
    unfold sqlLengthFrom
    rw [List.length_cons]
    split
    · omega
    split
    · have := ih true
      omega
    · have := ih (0xc0 ≤ c)
      omega

theorem one_le_sqlLength {t : Text} (hne : t ≠ []) (h0 : 0 ∉ t) : 1 ≤ sqlLength t := by
  cases t with
  | nil => exact absurd rfl hne
  | cons c t =>
    have hc : c ≠ 0 := fun hc => h0 (hc ▸ List.mem_cons_self)
    rw [sqlLength, sqlLengthFrom, if_neg hc, Bool.false_and, if_neg Bool.false_ne_true]
    omega

/-! ## Free subnets and hosts -/

namespace Tables

/-- Some network has the subnet that starts at `a`. -/
def Assigned (t : Tables) (a : ℕ) : Prop := ∃ m b, t.subnets.lookup m = some b ∧ b.val.toNat = a

/-- Some member has the address `a`. -/
def Leased (t : Tables) (a : ℕ) : Prop := ∃ key b, t.leases.lookup key = some b ∧ b.val.toNat = a

/-- The subnets of the pool that no network has. -/
def freeSubnets (t : Tables) : Set ℕ := {a | (∃ k < 16384, a = virtualIpv4PoolFirst.toNat + 256 * k) ∧ ¬ t.Assigned a}

/-- The host addresses of the network's subnet that nobody has. -/
def freeHosts (t : Tables) (n : NetworkId) : Set ℕ :=
  {a | (∃ base, t.subnets.lookup n = some base ∧ ∃ k < 254, a = base.val.toNat + 1 + k) ∧ ¬ t.Leased a}

/-- The part of the invariant about addresses that also holds while networks
and members wait for theirs. -/
structure Addressing (t : Tables) : Prop where
  subnet_network : ∀ n ∈ t.subnets, n ∈ t.networks
  subnet_distinct : Map.Distinct (·.val) t.subnets
  lease_member : ∀ key ∈ t.leases, key ∈ t.memberships
  lease_inside : ∀ n d a, t.leases.lookup (n, d) = some a → Db.InSubnet t n a
  lease_distinct : Map.Distinct (·.val) t.leases

theorem Addressed.addressing {t : Tables} (h : Addressed t) : Addressing t where
  subnet_network n hn := (h.subnet_network n).1 hn
  subnet_distinct := h.subnet_distinct
  lease_member key hkey := (h.lease_member key).1 hkey
  lease_inside := h.lease_inside
  lease_distinct := h.lease_distinct

end Tables

namespace Db
variable {db db' : Db} {n : NetworkId} {d : DeviceId}

/-! ## The pass over the occupied addresses -/

/-- On machine words the pass is the search for a gap, as long as no occupied
address is at the end of their range. -/
theorem toNat_firstFree {stride : UInt32} {occupied : List UInt32} (candidate : UInt32)
    (h : ∀ a ∈ occupied, a.toNat + stride.toNat < 2 ^ 32) :
    (firstFree stride candidate occupied).toNat =
      firstGap stride.toNat candidate.toNat (occupied.map UInt32.toNat) := by
  induction occupied generalizing candidate with
  | nil => rfl
  | cons a occupied ih =>
    obtain ⟨ha, htail⟩ := List.forall_mem_cons.1 h
    simp only [firstFree, List.map_cons, firstGap, UInt32.lt_iff_toNat_lt, UInt32.toNat_inj]
    split
    · rfl
    · split
      · rename_i heq
        have hnext : (candidate + stride).toNat = candidate.toNat + stride.toNat := by
          rw [UInt32.toNat_add, ← heq]
          exact Nat.mod_eq_of_lt ha
        rw [ih _ htail, hnext]
      · exact ih _ htail

/-- The gap in a column of addresses below the end of the pool. -/
theorem firstFree_spec {stride : UInt32} {column : List UInt32} (candidate : UInt32) (hstride : 0 < stride.toNat)
    (hsmall : stride.toNat ≤ 256) (h : ∀ a ∈ column, a < virtualIpv4PoolEnd) :
    ∃ k, (firstFree stride candidate (column.insertionSort (· ≤ ·))).toNat = candidate.toNat + stride.toNat * k ∧
      (∀ a ∈ column, a.toNat ≠ candidate.toNat + stride.toNat * k) ∧
      ∀ i < k, ∃ a ∈ column, a.toNat = candidate.toNat + stride.toNat * i := by
  have hsorted : (column.insertionSort (· ≤ ·)).Pairwise fun a b => a ≤ b := List.pairwise_insertionSort (· ≤ ·) column
  have hnumbers : ((column.insertionSort (· ≤ ·)).map UInt32.toNat).Pairwise (· ≤ ·) := by
    rw [List.pairwise_map]
    exact hsorted.imp fun hle => UInt32.le_iff_toNat_le.1 hle
  have hend : ∀ a ∈ column.insertionSort (· ≤ ·), a.toNat + stride.toNat < 2 ^ 32 := by
    intro a ha
    have hlt := UInt32.lt_iff_toNat_lt.1 (h a ((List.mem_insertionSort _).1 ha))
    rw [show virtualIpv4PoolEnd.toNat = 0x0a800000 from rfl] at hlt
    omega
  obtain ⟨k, hgap, hnot, hall⟩ := @firstGap_spec stride.toNat candidate.toNat _ hstride hnumbers
  simp only [List.mem_map, List.mem_insertionSort, not_exists, not_and] at hnot hall
  exact ⟨k, (toNat_firstFree candidate hend).trans hgap, hnot, hall⟩

/-! ## Subnets -/

def subnetPoolExhausted : Exn := .lengthError "virtual IPv4 subnet pool is exhausted"

/-- The candidate of `insert_subnet`, which is past the pool if all its subnets are assigned. -/
theorem subnetCandidate (db : Db) : ∃ k ≤ 16384,
    (firstFree virtualIpv4SubnetSize virtualIpv4PoolFirst ((db.subnets.rows.map (·.2.val)).insertionSort (· ≤ ·))).toNat =
      virtualIpv4PoolFirst.toNat + 256 * k ∧
    ¬ db.Assigned (virtualIpv4PoolFirst.toNat + 256 * k) ∧ ∀ i < k, db.Assigned (virtualIpv4PoolFirst.toNat + 256 * i) := by
  have hcolumn (a : ℕ) : db.Assigned a ↔ ∃ b ∈ db.subnets.rows.map (·.2.val), b.toNat = a := by
    constructor
    · rintro ⟨m, b, hb, rfl⟩
      exact ⟨b.val, List.mem_map.2 ⟨(m, b), Map.mem_rows.2 hb, rfl⟩, rfl⟩
    · rintro ⟨b, hb, rfl⟩
      obtain ⟨row, hrow, rfl⟩ := List.mem_map.1 hb
      exact ⟨row.1, row.2, Map.mem_rows.1 hrow, rfl⟩
  have hpool : ∀ a ∈ db.subnets.rows.map (·.2.val), a < virtualIpv4PoolEnd := by
    intro a ha
    obtain ⟨row, -, rfl⟩ := List.mem_map.1 ha
    exact row.2.property.2.1
  obtain ⟨k, hgap, hnot, hall⟩ := @firstFree_spec virtualIpv4SubnetSize _ virtualIpv4PoolFirst (by decide) (by decide) hpool
  refine ⟨k, ?_, hgap, ?_, fun i hi => (hcolumn _).2 (hall i hi)⟩
  · -- no subnet starts at the end of the pool
    by_contra hlt
    obtain ⟨a, ha, heq⟩ := hall 16384 (not_le.1 hlt)
    have hbound := UInt32.lt_iff_toNat_lt.1 (hpool a ha)
    rw [heq] at hbound
    exact absurd hbound (by decide)
  · intro hassigned
    obtain ⟨a, ha, heq⟩ := (hcolumn _).1 hassigned
    exact hnot a ha heq

/-- What `insert_subnet` does, by the first free subnet. -/
theorem insertSubnet_cases (db : Db) (n : NetworkId) :
    (db.freeSubnets = ∅ ∧ db.insertSubnet n = .error subnetPoolExhausted) ∨
    ∃ base : SubnetAddress, IsLeast db.freeSubnets base.val.toNat ∧
      if n ∈ db.networks ∧ n ∉ db.subnets then db.insertSubnet n = .ok { db with subnets := db.subnets.insert n base }
      else ∃ detail, db.insertSubnet n = .error (constraintFailed detail) := by
  obtain ⟨k, hk, hcandidate, hfree, hused⟩ := db.subnetCandidate
  simp only [insertSubnet]
  generalize firstFree virtualIpv4SubnetSize virtualIpv4PoolFirst
    ((db.subnets.rows.map (·.2.val)).insertionSort (· ≤ ·)) = candidate at hcandidate ⊢
  have hfirst : virtualIpv4PoolFirst.toNat = 0x0a400000 := rfl
  have hend : virtualIpv4PoolEnd.toNat = 0x0a800000 := rfl
  rcases Nat.lt_or_ge k 16384 with hlt | hge
  · right
    have hbelow : candidate < virtualIpv4PoolEnd := by
      rw [UInt32.lt_iff_toNat_lt]
      omega
    have hcheck : virtualIpv4PoolFirst ≤ candidate ∧ candidate < virtualIpv4PoolEnd ∧ candidate % virtualIpv4SubnetSize = 0 := by
      refine ⟨?_, hbelow, ?_⟩
      · rw [UInt32.le_iff_toNat_le]
        omega
      · rw [← UInt32.toNat_inj, UInt32.toNat_mod, hcandidate, hfirst]
        change (0x0a400000 + 256 * k) % 256 = 0
        omega
    refine ⟨⟨candidate, hcheck⟩, ⟨⟨⟨k, hlt, hcandidate⟩, hcandidate ▸ hfree⟩, ?_⟩, ?_⟩
    · rintro a ⟨⟨i, hi, rfl⟩, ha⟩
      by_contra hlower
      refine ha (hused i ?_)
      dsimp only at hlower
      omega
    · have hunassigned : db.subnets.rows.all (fun row => row.2.val ≠ candidate) = true := by
        rw [List.all_eq_true]
        intro row hrow
        rw [decide_eq_true_eq]
        rintro rfl
        exact hfree ⟨row.1, row.2, Map.mem_rows.1 hrow, hcandidate⟩
      rw [check_of hbelow, ok_bind, dif_pos hcheck]
      split
      · rename_i hn
        rw [check_of hn.2, ok_bind, check_of hunassigned, ok_bind, check_of hn.1, ok_bind]
      · rename_i hn
        by_cases hold : n ∈ db.subnets
        · exact ⟨_, by rw [check_of_not (not_not_intro hold), error_bind]⟩
        · refine ⟨"FOREIGN KEY constraint failed", ?_⟩
          rw [check_of hold, ok_bind, check_of hunassigned, ok_bind, check_of_not fun h => hn ⟨h, hold⟩, error_bind]
          rfl
  · left
    constructor
    · rw [Set.eq_empty_iff_forall_notMem]
      rintro a ⟨⟨i, hi, rfl⟩, ha⟩
      exact ha (hused i (by omega))
    · have habove : ¬ candidate < virtualIpv4PoolEnd := by
        rw [UInt32.lt_iff_toNat_lt]
        omega
      rw [check_of_not habove, error_bind]
      rfl

/-! ## Leases -/

def hostsExhausted : Exn := .lengthError "virtual IPv4 subnet has no available host addresses"

/-- The addresses of a subnet, as numbers. -/
theorem host_spec (base : SubnetAddress) (host : ℕ) (h₁ : 1 ≤ host) (h₂ : host ≤ 254) {a : UInt32}
    (ha : a.toNat = base.val.toNat + host) : a < base.val + virtualIpv4SubnetSize - 1 ∧ base.val = a - a % 256 ∧
      virtualIpv4PoolFirst ≤ a ∧ a < virtualIpv4PoolEnd ∧ 1 ≤ a % virtualIpv4SubnetSize ∧ a % virtualIpv4SubnetSize ≤ 254 := by
  obtain ⟨hfirst, hend, haligned⟩ := base.property
  have hmod : (base.val % virtualIpv4SubnetSize).toNat = base.val.toNat % 256 := UInt32.toNat_mod _ _
  have hmod' : (a % virtualIpv4SubnetSize).toNat = a.toNat % 256 := UInt32.toNat_mod _ _
  rw [haligned] at hmod
  rw [UInt32.le_iff_toNat_le] at hfirst
  rw [UInt32.lt_iff_toNat_lt] at hend
  have hzero : (0 : UInt32).toNat = 0 := rfl
  have hpool : virtualIpv4PoolFirst.toNat = 0x0a400000 := rfl
  have hpool' : virtualIpv4PoolEnd.toNat = 0x0a800000 := rfl
  have hsize : (base.val + virtualIpv4SubnetSize).toNat = base.val.toNat + 256 := by
    rw [UInt32.toNat_add]
    change (base.val.toNat + 256) % 2 ^ 32 = _
    omega
  have hlast : (base.val + virtualIpv4SubnetSize - 1).toNat = base.val.toNat + 255 := by
    rw [UInt32.toNat_sub_of_le]
    · rw [hsize]
      rfl
    · rw [UInt32.le_iff_toNat_le, hsize]
      exact Nat.le_add_left _ _
  have hle : a % 256 ≤ a := by
    rw [UInt32.le_iff_toNat_le]
    exact hmod' ▸ Nat.mod_le _ _
  refine ⟨?_, ?_, ?_, ?_, ?_, ?_⟩
  · rw [UInt32.lt_iff_toNat_lt, hlast]
    omega
  · rw [← UInt32.toNat_inj, UInt32.toNat_sub_of_le _ _ hle]
    change _ = a.toNat - (a % virtualIpv4SubnetSize).toNat
    omega
  · rw [UInt32.le_iff_toNat_le]
    omega
  · rw [UInt32.lt_iff_toNat_lt]
    omega
  · rw [UInt32.le_iff_toNat_le, hmod']
    change 1 ≤ _
    omega
  · rw [UInt32.le_iff_toNat_le, hmod']
    change _ ≤ 254
    omega

/-- An address in a network's subnet is leased, if at all, to a member of that network. -/
theorem leased_iff (h : db.Addressing) {base : SubnetAddress} (hbase : db.subnets.lookup n = some base) {a : UInt32}
    (ha : base.val = a - a % 256) :
    db.Leased a.toNat ↔ a ∈ (db.leases.rows.filter fun row => row.1.1 = n).map (·.2.val) := by
  simp only [List.mem_map, List.mem_filter, decide_eq_true_eq]
  constructor
  · rintro ⟨⟨m, e⟩, b, hb, heq⟩
    rw [UInt32.toNat_inj] at heq
    obtain ⟨base', hbase', hsubnet⟩ := h.lease_inside m e b hb
    obtain rfl : m = n := by
      refine h.subnet_distinct m n base' base hbase' hbase ?_
      dsimp only
      rw [hsubnet, ha, heq]
    exact ⟨((m, e), b), ⟨Map.mem_rows.2 hb, rfl⟩, heq⟩
  · rintro ⟨row, ⟨hrow, -⟩, rfl⟩
    exact ⟨row.1, row.2, Map.mem_rows.1 hrow, rfl⟩

/-- The candidate of `insert_lease`, which is the broadcast address if all hosts have a lease. -/
theorem hostCandidate (h : db.Addressing) {base : SubnetAddress} (hbase : db.subnets.lookup n = some base) : ∃ k ≤ 254,
    (firstFree 1 (base.val + 1)
      (((db.leases.rows.filter fun row => row.1.1 = n).map (·.2.val)).insertionSort (· ≤ ·))).toNat = base.val.toNat + 1 + k ∧
    ¬ db.Leased (base.val.toNat + 1 + k) ∧ ∀ i < k, db.Leased (base.val.toNat + 1 + i) := by
  have hrange : ∀ a ∈ (db.leases.rows.filter fun row => row.1.1 = n).map (·.2.val),
      a < virtualIpv4PoolEnd ∧ a.toNat % 256 ≤ 254 := by
    intro a ha
    obtain ⟨row, -, rfl⟩ := List.mem_map.1 ha
    obtain ⟨-, hend, -, hhost⟩ := row.2.property
    rw [UInt32.le_iff_toNat_le, UInt32.toNat_mod] at hhost
    exact ⟨hend, hhost⟩
  obtain ⟨hfirst, hend, haligned⟩ := base.property
  have haligned' : base.val.toNat % 256 = 0 := by
    rw [← UInt32.toNat_inj, UInt32.toNat_mod] at haligned
    exact haligned
  rw [UInt32.lt_iff_toNat_lt, show virtualIpv4PoolEnd.toNat = 0x0a800000 from rfl] at hend
  have hstart : (base.val + 1).toNat = base.val.toNat + 1 := by
    rw [UInt32.toNat_add, UInt32.toNat_one]
    omega
  obtain ⟨k, hgap, hnot, hall⟩ := @firstFree_spec 1 _ (base.val + 1) (by decide) (by decide) fun a ha => (hrange a ha).1
  simp only [UInt32.toNat_one, one_mul, hstart] at hgap hnot hall
  have hk : k ≤ 254 := by
    by_contra hlt
    obtain ⟨a, ha, heq⟩ := hall 254 (not_le.1 hlt)
    have hhost := (hrange a ha).2
    omega
  have hleased : ∀ i < k, db.Leased (base.val.toNat + 1 + i) := by
    intro i hi
    obtain ⟨a, ha, heq⟩ := hall i hi
    obtain ⟨row, hrow, rfl⟩ := List.mem_map.1 ha
    exact ⟨row.1, row.2, Map.mem_rows.1 (List.mem_of_mem_filter hrow), heq⟩
  refine ⟨k, hk, hgap, ?_, hleased⟩
  rintro ⟨⟨m, e⟩, b, hb, heq⟩
  rcases Nat.lt_or_ge k 254 with hlt | hge
  · obtain ⟨-, hsubnet, -⟩ := @host_spec base (k + 1) (by omega) (by omega) b.val (by omega)
    have hmem := (leased_iff h hbase hsubnet).1 ⟨(m, e), b, hb, rfl⟩
    exact hnot _ hmem heq
  · have hhost := b.property.2.2.2
    rw [UInt32.le_iff_toNat_le, UInt32.toNat_mod] at hhost
    change _ % 256 ≤ 254 at hhost
    omega

/-- What `insert_lease` does, by the first free host address. -/
theorem insertLease_cases (h : db.Addressing) (d : DeviceId) (hn : n ∈ db.subnets) :
    (db.freeHosts n = ∅ ∧ db.insertLease n d = .error hostsExhausted) ∨
    ∃ a : LeaseAddress, IsLeast (db.freeHosts n) a.val.toNat ∧ InSubnet db.toTables n a ∧
      if (n, d) ∈ db.memberships ∧ (n, d) ∉ db.leases then
        db.insertLease n d = .ok { db with leases := db.leases.insert (n, d) a }
      else ∃ detail, db.insertLease n d = .error (constraintFailed detail) := by
  obtain ⟨base, hbase⟩ := Map.mem_iff_lookup.1 hn
  obtain ⟨k, hk, hcandidate, hfree, hused⟩ := hostCandidate h hbase
  simp only [insertLease, hbase]
  generalize firstFree 1 (base.val + 1)
    (((db.leases.rows.filter fun row => row.1.1 = n).map (·.2.val)).insertionSort (· ≤ ·)) = candidate at hcandidate ⊢
  have hmem (a : ℕ) : a ∈ db.freeHosts n ↔ (∃ i < 254, a = base.val.toNat + 1 + i) ∧ ¬ db.Leased a := by
    simp only [Tables.freeHosts, hbase, Set.mem_ofPred_eq, Option.some.injEq, exists_eq_left']
  rcases Nat.lt_or_ge k 254 with hlt | hge
  · right
    obtain ⟨hlast, hsubnet, hhost⟩ := @host_spec base (k + 1) (by omega) (by omega) candidate (by omega)
    refine ⟨⟨candidate, hhost⟩, ⟨(hmem _).2 ⟨⟨k, hlt, hcandidate⟩, hcandidate ▸ hfree⟩, ?_⟩, ⟨base, hbase, hsubnet⟩, ?_⟩
    · intro a ha
      obtain ⟨⟨i, hi, rfl⟩, ha⟩ := (hmem a).1 ha
      by_contra hlower
      refine ha (hused i ?_)
      dsimp only at hlower
      omega
    · have hunleased : db.leases.rows.all (fun row => row.2.val ≠ candidate) = true := by
        rw [List.all_eq_true]
        intro row hrow
        rw [decide_eq_true_eq]
        rintro rfl
        exact hfree ⟨row.1, row.2, Map.mem_rows.1 hrow, hcandidate⟩
      rw [check_of hlast, ok_bind, check_of hsubnet, ok_bind, dif_pos hhost]
      split
      · rename_i hmember
        rw [check_of hmember.2, ok_bind, check_of hunleased, ok_bind, check_of hmember.1, ok_bind]
      · rename_i hmember
        by_cases hold : (n, d) ∈ db.leases
        · exact ⟨_, by rw [check_of_not (not_not_intro hold), error_bind]⟩
        · refine ⟨"FOREIGN KEY constraint failed", ?_⟩
          rw [check_of hold, ok_bind, check_of hunleased, ok_bind, check_of_not fun h => hmember ⟨h, hold⟩, error_bind]
          rfl
  · left
    constructor
    · rw [Set.eq_empty_iff_forall_notMem]
      intro a ha
      obtain ⟨⟨i, hi, rfl⟩, ha⟩ := (hmem a).1 ha
      exact ha (hused i (by omega))
    · have hlast : (base.val + virtualIpv4SubnetSize - 1).toNat = base.val.toNat + 255 := by
        obtain ⟨-, hend, -⟩ := base.property
        rw [UInt32.lt_iff_toNat_lt, show virtualIpv4PoolEnd.toNat = 0x0a800000 from rfl] at hend
        have hsize : (base.val + virtualIpv4SubnetSize).toNat = base.val.toNat + 256 := by
          rw [UInt32.toNat_add]
          exact Nat.mod_eq_of_lt (by change _ + 256 < _; omega)
        rw [UInt32.toNat_sub_of_le, hsize]
        · rfl
        · rw [UInt32.le_iff_toNat_le, hsize]
          exact Nat.le_add_left _ _
      have habove : ¬ candidate < base.val + virtualIpv4SubnetSize - 1 := by
        rw [UInt32.lt_iff_toNat_lt, hlast]
        omega
      rw [check_of_not habove, error_bind]
      rfl

/-! ## How many are free -/

theorem freeSubnets_eq_empty : db.freeSubnets = ∅ ↔ ∀ k < 16384, db.Assigned (virtualIpv4PoolFirst.toNat + 256 * k) := by
  rw [Set.eq_empty_iff_forall_notMem]
  constructor
  · intro h k hk
    by_contra hfree
    exact h _ ⟨⟨k, hk, rfl⟩, hfree⟩
  · rintro h a ⟨⟨k, hk, rfl⟩, hfree⟩
    exact hfree (h k hk)

theorem freeHosts_eq_empty {base : SubnetAddress} (hbase : db.subnets.lookup n = some base) :
    db.freeHosts n = ∅ ↔ ∀ k < 254, db.Leased (base.val.toNat + 1 + k) := by
  rw [Set.eq_empty_iff_forall_notMem]
  simp only [Tables.freeHosts, hbase, Set.mem_ofPred_eq, Option.some.injEq, exists_eq_left']
  constructor
  · intro h k hk
    by_contra hfree
    exact h _ ⟨⟨k, hk, rfl⟩, hfree⟩
  · rintro h a ⟨⟨k, hk, rfl⟩, hfree⟩
    exact hfree (h k hk)

/-- While there are fewer networks than subnets one is free. -/
theorem freeSubnets_nonempty (h : db.subnets.size < 16384) : db.freeSubnets ≠ ∅ := by
  intro hnone
  rw [freeSubnets_eq_empty] at hnone
  have hlength := @le_length_of_progression 256 virtualIpv4PoolFirst.toNat (db.subnets.rows.map fun row => row.2.val.toNat) 16384
    (by norm_num) (fun i hi => by
      obtain ⟨m, b, hb, heq⟩ := hnone i hi
      exact List.mem_map.2 ⟨(m, b), Map.mem_rows.2 hb, heq⟩)
  rw [List.length_map, Map.rows, List.length_map] at hlength
  exact absurd hlength (not_le.2 h)

/-- While a network has fewer than 254 members an address is free. -/
theorem freeHosts_nonempty (h : db.Addressing) (hn : n ∈ db.subnets) (hroom : db.leases.count (fun row => row.1.1 = n) ≤ 253) :
    db.freeHosts n ≠ ∅ := by
  intro hnone
  obtain ⟨base, hbase⟩ := Map.mem_iff_lookup.1 hn
  rw [freeHosts_eq_empty hbase] at hnone
  have hlength := @le_length_of_progression 1 (base.val.toNat + 1)
    ((db.leases.rows.filter fun row => row.1.1 = n).map fun row => row.2.val.toNat) 254 (by norm_num) (fun i hi => by
      obtain ⟨key, b, hb, heq⟩ := hnone i hi
      obtain ⟨-, hsubnet, -⟩ := @host_spec base (i + 1) (by omega) (by omega) b.val (by omega)
      obtain ⟨row, hrow, hval⟩ := List.mem_map.1 ((leased_iff h hbase hsubnet).1 ⟨key, b, hb, rfl⟩)
      exact List.mem_map.2 ⟨row, hrow, by rw [hval, heq, one_mul]⟩)
  rw [List.length_map] at hlength
  change 254 ≤ db.leases.count (fun row => row.1.1 = n) at hlength
  omega

/-! ## Joining and creating -/

/-- What the arguments of a join must satisfy whatever addresses are free. -/
structure Admissible (db : Db) (n : NetworkId) (d : DeviceId) (atMs : ℤ) : Prop where
  network : n ∈ db.networks
  device : d ∈ db.devices
  nonzero : d ≠ 0
  time : 0 ≤ atMs
  fresh : (n, d) ∉ db.memberships

/-- A membership that is new and, for the owner's role, the one of the owner. -/
theorem insertMembership_eq {row : Membership} (orIgnore : Bool) (hn : n ∈ db.networks) (hd : d ∈ db.devices)
    (hfresh : (n, d) ∉ db.memberships) (htime : 0 ≤ row.joinedAtMs)
    (howner : row.role = .owner → db.owner n = some d ∧ db.hasOwnerRow n = false) :
    db.insertMembership orIgnore n d row = .ok (true, { db with
      memberships := db.memberships.insert (n, d) row
      invitations := db.invitations.erase (n, d)
      joinRequests := db.joinRequests.erase (n, d) }) := by
  rw [insertMembership, check_of fun hrole => (howner hrole).1, ok_bind, if_neg, check_of ⟨hn, hd⟩, ok_bind]
  rintro (hpast | hold | ⟨hrole, hsecond⟩)
  · exact absurd htime (not_le.2 hpast)
  · exact hfresh hold
  · rw [(howner hrole).2] at hsecond
    cases hsecond

/-- A member gets the first free host address. -/
theorem addMember_cases (h : db.Wf) {atMs : ℤ} (hd : db.Admissible n d atMs) :
    (db.freeHosts n = ∅ ∧ db.addMember n d atMs = .error hostsExhausted) ∨
    ∃ a : LeaseAddress, IsLeast (db.freeHosts n) a.val.toNat ∧
      db.addMember n d atMs = .ok (true, { db with toTables := db.join n d { role := .member, joinedAtMs := atMs } a }) := by
  have hn0 : n ≠ 0 := fun h0 => h.owned.nonzero (h0 ▸ hd.network)
  obtain ⟨joining, hjoining⟩ : ∃ joining : Db, joining = { db with
      memberships := db.memberships.insert (n, d) { role := .member, joinedAtMs := atMs }
      invitations := db.invitations.erase (n, d)
      joinRequests := db.joinRequests.erase (n, d) } := ⟨_, rfl⟩
  have hinsert : db.insertMembership true n d { role := .member, joinedAtMs := atMs } = .ok (true, joining) := by
    rw [insertMembership_eq true hd.network hd.device hd.fresh hd.time fun howner => (by cases howner), hjoining]
  have hadd : db.addMember n d atMs = joining.insertLease n d >>= fun db' => .ok (true, db') := by
    simp only [addMember, requireNetworkId, requireDeviceId, requireTimestamp, check_of hn0, check_of hd.nonzero,
      check_of hd.time, ok_bind, hinsert, if_true]
  have haddressing : joining.Addressing := by
    obtain ⟨h1, h2, h3, h4, h5⟩ := h.addressed.addressing
    rw [hjoining]
    refine ⟨h1, h2, fun key hkey => ?_, h4, h5⟩
    exact (AList.mem_insert _).2 (.inr (h3 key hkey))
  have hsubnet : n ∈ joining.subnets := by
    rw [hjoining]
    exact (h.addressed.subnet_network n).2 hd.network
  have hfree : joining.freeHosts n = db.freeHosts n := by rw [hjoining]; rfl
  rcases insertLease_cases haddressing d hsubnet with ⟨hnone, herror⟩ | ⟨a, hleast, -, hok⟩
  · exact .inl ⟨hfree ▸ hnone, by rw [hadd, herror, error_bind]⟩
  · have hnew : (n, d) ∉ joining.leases := by
      rw [hjoining]
      exact fun hlease => hd.fresh ((h.addressed.lease_member _).1 hlease)
    have hmember : (n, d) ∈ joining.memberships := by simp [hjoining]
    rw [if_pos ⟨hmember, hnew⟩] at hok
    refine .inr ⟨a, hfree ▸ hleast, ?_⟩
    rw [hadd, hok, ok_bind, hjoining]
    rfl

theorem exists_addMember {db : Db} {n : NetworkId} {d : DeviceId} {atMs : ℤ} (hw : db.Wf) (hn : n ∈ db.networks) (hd : d ≠ 0)
    (hat : 0 ≤ atMs) (hdevice : d ∈ db.devices) (hfresh : (n, d) ∉ db.memberships)
    (hroom : db.memberships.count (fun row => row.1.1 = n) ≤ 253) : ∃ db', db.addMember n d atMs = .ok (true, db') := by
  have hcount : db.leases.count (fun row => row.1.1 = n) ≤ 0 + db.memberships.count (fun row => row.1.1 = n) := by
    refine Map.count_le [] fun key a hkey hmine => .inr ?_
    obtain ⟨row, hrow⟩ := Map.mem_iff_lookup.1 ((hw.addressed.lease_member key).1 (Map.mem_of_lookup hkey))
    exact ⟨row, hrow, hmine⟩
  have hsubnet := (hw.addressed.subnet_network n).2 hn
  rcases addMember_cases hw ⟨hn, hdevice, hd, hat, hfresh⟩ with ⟨hnone, -⟩ | ⟨a, -, hok⟩
  · exact absurd hnone (freeHosts_nonempty hw.addressed.addressing hsubnet (by omega))
  · exact ⟨_, hok⟩

/-- What the arguments of a creation must satisfy whatever subnets are free. -/
structure Creatable (db : Db) (n : NetworkId) (network : Network) : Prop where
  nonzero : n ≠ 0
  fresh : n ∉ db.networks
  name : requireNetworkName network.name = .ok ()
  owner : network.ownerDeviceId ≠ 0
  device : network.ownerDeviceId ∈ db.devices
  time : 0 ≤ network.createdAtMs

theorem Creatable.sqlLength {network : Network} (h : db.Creatable n network) :
    1 ≤ sqlLength network.name ∧ sqlLength network.name ≤ 128 := by
  have hname := h.name
  simp only [requireNetworkName, bind_eq_ok, check_eq_ok, exists_const, List.all_eq_true] at hname
  obtain ⟨⟨hne, hlength⟩, hprintable⟩ := hname
  refine ⟨one_le_sqlLength hne fun h0 => ?_, (sqlLengthFrom_le false _).trans hlength⟩
  exact absurd (hprintable 0 h0) (by decide)

/-- A network gets the first free subnet, its owner the first address in it. -/
theorem createNetwork_cases (h : db.Wf) {network : Network} (hc : db.Creatable n network) (password : Option PasswordVerifier) :
    (db.freeSubnets = ∅ ∧ db.createNetwork n network password = .error subnetPoolExhausted) ∨
    ∃ (base : SubnetAddress) (a : LeaseAddress), IsLeast db.freeSubnets base.val.toNat ∧ a.val.toNat = base.val.toNat + 1 ∧
      db.createNetwork n network password = .ok ((), { db with toTables := db.create n network base a password }) := by
  have hsubnet : n ∉ db.subnets := fun hn => hc.fresh ((h.addressed.subnet_network n).1 hn)
  have hmember (d : DeviceId) : (n, d) ∉ db.memberships := fun hm => hc.fresh (h.owned.member_network n d hm)
  have haccess : n ∉ db.access := fun hn => hc.fresh (h.rooted.access n hn)
  -- the states inside the transaction: the network, its subnet, its owner
  obtain ⟨founding, hfounding⟩ : ∃ founding : Db, founding = { db with networks := db.networks.insert n network } := ⟨_, rfl⟩
  have hnetwork : db.insertNetwork n network = .ok founding := by
    rw [insertNetwork, check_of hc.sqlLength, ok_bind, check_of hc.time, ok_bind, check_of hc.fresh, ok_bind, check_of hc.device,
      ok_bind, hfounding]
  have hfree : founding.freeSubnets = db.freeSubnets := by rw [hfounding]; rfl
  rcases insertSubnet_cases founding n with ⟨hnone, herror⟩ | ⟨base, hleast, hok⟩
  · left
    refine ⟨hfree ▸ hnone, ?_⟩
    simp only [createNetwork, requireNetworkId, requireDeviceId, requireTimestamp, check_of hc.nonzero, hc.name, check_of hc.owner,
      check_of hc.time, ok_bind, hnetwork, herror, error_bind]
  rw [hfree] at hleast
  have hready : n ∈ founding.networks ∧ n ∉ founding.subnets := by simp [hfounding, hsubnet]
  rw [if_pos hready] at hok
  obtain ⟨founded, hfounded⟩ : ∃ founded : Db, founded = { founding with subnets := founding.subnets.insert n base } := ⟨_, rfl⟩
  rw [← hfounded] at hok
  rw [hfounding] at hfounded
  obtain ⟨owned, howned⟩ : ∃ owned : Db, owned = { db with
      networks := db.networks.insert n network
      subnets := db.subnets.insert n base
      memberships := db.memberships.insert (n, network.ownerDeviceId) { role := .owner, joinedAtMs := network.createdAtMs }
      invitations := db.invitations.erase (n, network.ownerDeviceId)
      joinRequests := db.joinRequests.erase (n, network.ownerDeviceId) } := ⟨_, rfl⟩
  have howner : founded.insertMembership false n network.ownerDeviceId { role := .owner, joinedAtMs := network.createdAtMs } =
      .ok (true, owned) := by
    have hsingle : founded.hasOwnerRow n = false := by
      rw [hasOwnerRow, List.any_eq_false]
      rintro ⟨⟨m, d⟩, row⟩ hrow hmine
      simp only [Bool.and_eq_true, decide_eq_true_eq] at hmine
      obtain ⟨rfl, -⟩ := hmine
      rw [hfounded] at hrow
      exact hmember d (Map.mem_of_lookup (Map.mem_rows.1 hrow))
    have hrow : founded.owner n = some network.ownerDeviceId := by simp [hfounded, Tables.owner]
    have hnew : (n, network.ownerDeviceId) ∉ founded.memberships := by
      rw [hfounded]
      exact hmember _
    have hpresent : n ∈ founded.networks := by simp [hfounded]
    have hdevice : network.ownerDeviceId ∈ founded.devices := by
      rw [hfounded]
      exact hc.device
    rw [insertMembership_eq false hpresent hdevice hnew hc.time fun _ => ⟨hrow, hsingle⟩, howned, hfounded]
  have hassigned (m : NetworkId) (b : SubnetAddress) (hb : db.subnets.lookup m = some b) : b.val ≠ base.val := by
    intro heq
    exact hleast.1.2 ⟨m, b, hb, by rw [heq]⟩
  have hunleased (key : NetworkId × DeviceId) (b : LeaseAddress) (hb : db.leases.lookup key = some b) :
      base.val ≠ b.val - b.val % 256 := by
    obtain ⟨base', hbase', hinside⟩ := h.addressed.lease_inside key.1 key.2 b hb
    exact fun heq => hassigned _ _ hbase' (hinside.trans heq.symm)
  have haddressing : owned.Addressing := by
    obtain ⟨h1, h2, h3, h4, h5⟩ := h.addressed.addressing
    rw [howned]
    refine ⟨fun m hm => ?_, h2.insert n hassigned, fun key hkey => (AList.mem_insert _).2 (.inr (h3 key hkey)), ?_, h5⟩
    · rcases (AList.mem_insert _).1 hm with rfl | hm
      · exact (AList.mem_insert _).2 (.inl rfl)
      · exact (AList.mem_insert _).2 (.inr (h1 m hm))
    · intro m d a ha
      obtain ⟨base', hbase', hinside⟩ := h4 m d a ha
      have hne : m ≠ n := fun hmn => hsubnet (hmn ▸ Map.mem_of_lookup hbase')
      exact ⟨base', by rwa [Map.lookup_insert, if_neg hne], hinside⟩
  have hbase : owned.subnets.lookup n = some base := by simp [howned]
  have hfirst : base.val.toNat + 1 ∈ owned.freeHosts n := by
    refine ⟨⟨base, hbase, 0, by norm_num, rfl⟩, ?_⟩
    rintro ⟨key, b, hb, heq⟩
    obtain ⟨-, hinside, -⟩ := @host_spec base 1 le_rfl (by norm_num) b.val heq
    rw [howned] at hb
    exact hunleased key b hb hinside
  rcases insertLease_cases haddressing network.ownerDeviceId (Map.mem_of_lookup hbase) with ⟨hnone, -⟩ | ⟨a, ha, -, hlease⟩
  · rw [hnone] at hfirst
    exact absurd hfirst (Set.notMem_empty _)
  have hlowest : a.val.toNat = base.val.toNat + 1 := by
    refine le_antisymm (ha.2 hfirst) ?_
    obtain ⟨⟨base', hbase', k, -, heq⟩, -⟩ := ha.1
    rw [hbase, Option.some.injEq] at hbase'
    subst hbase'
    omega
  have hnew : (n, network.ownerDeviceId) ∈ owned.memberships ∧ (n, network.ownerDeviceId) ∉ owned.leases := by
    rw [howned]
    refine ⟨by simp, fun hold => ?_⟩
    exact hmember _ ((h.addressed.lease_member _).1 hold)
  rw [if_pos hnew] at hlease
  refine .inr ⟨base, a, hleast, hlowest, ?_⟩
  simp only [createNetwork, requireNetworkId, requireDeviceId, requireTimestamp, check_of hc.nonzero, hc.name, check_of hc.owner,
    check_of hc.time, ok_bind, hnetwork, hok, howner, hlease]
  cases password with
  | none =>
    rw [howned]
    rfl
  | some verifier =>
    have hpassword : n ∉ owned.access := by rwa [howned]
    have hpresent : n ∈ owned.networks := by simp [howned]
    dsimp only
    rw [check_of hpassword, ok_bind, upsertAccess, check_of hpresent, ok_bind, ok_bind, howned]
    rfl

/-! ## What leaving gives back -/

/-- The address of a removed member is free again. -/
theorem mem_freeHosts_of_removed (h : db.Wf) (hr : db.removeMember n d = .ok (true, db')) :
    ∃ a, db.leases.lookup (n, d) = some a ∧ a.val.toNat ∈ db'.freeHosts n := by
  obtain ⟨hfalse, -⟩ | ⟨-, ⟨row, hrow, -⟩, rfl⟩ := removeMember_ok hr
  · cases hfalse
  obtain ⟨a, ha⟩ := Map.mem_iff_lookup.1 ((h.addressed.lease_member (n, d)).2 (Map.mem_of_lookup hrow))
  obtain ⟨base, hbase, hinside⟩ := h.addressed.lease_inside n d a ha
  obtain ⟨hlow, hhigh⟩ := host_of_subnet hinside a.property.2.2.1 a.property.2.2.2
  refine ⟨a, ha, ⟨base, hbase, a.val.toNat - base.val.toNat - 1, by omega, by omega⟩, ?_⟩
  rintro ⟨key, b, hb, heq⟩
  change (db.leases.erase (n, d)).lookup key = some b at hb
  rw [Map.lookup_erase] at hb
  split at hb
  · cases hb
  · rename_i hne
    exact hne (h.addressed.lease_distinct key (n, d) b a hb ha (UInt32.toNat_inj.1 heq))

/-- The subnet of a deleted network is free again. -/
theorem mem_freeSubnets_of_deleted (h : db.Wf) (hr : db.deleteNetwork n = .ok (true, db')) :
    ∃ base, db.subnets.lookup n = some base ∧ base.val.toNat ∈ db'.freeSubnets := by
  have hn : n ∈ db.networks := by
    simp only [deleteNetwork, bind_eq_ok, Except.ok.injEq, Prod.mk.injEq, decide_eq_true_eq] at hr
    obtain ⟨-, -, hn, -⟩ := hr
    exact hn
  obtain rfl := deleteNetwork_ok hr
  obtain ⟨base, hbase⟩ := Map.mem_iff_lookup.1 ((h.addressed.subnet_network n).2 hn)
  obtain ⟨hfirst, hend, haligned⟩ := base.property
  rw [UInt32.le_iff_toNat_le, show virtualIpv4PoolFirst.toNat = 0x0a400000 from rfl] at hfirst
  rw [UInt32.lt_iff_toNat_lt, show virtualIpv4PoolEnd.toNat = 0x0a800000 from rfl] at hend
  rw [← UInt32.toNat_inj, UInt32.toNat_mod] at haligned
  change base.val.toNat % 256 = 0 at haligned
  refine ⟨base, hbase, ⟨(base.val.toNat - 0x0a400000) / 256, by omega, ?_⟩, ?_⟩
  · change _ = 0x0a400000 + 256 * _
    omega
  rintro ⟨m, b, hb, heq⟩
  change (db.subnets.erase n).lookup m = some b at hb
  rw [Map.lookup_erase] at hb
  split at hb
  · cases hb
  · rename_i hne
    exact hne (h.addressed.subnet_distinct m n b base hb hbase (UInt32.toNat_inj.1 heq))

end Db

/-- Both allocators take the smallest free address and fail when there is none; so
after any operations on an empty database nobody is refused while an address is
free, and what was given back is free. -/
theorem least_free_addresses :
    (∀ db : Db, db.Addressing →
      (∀ n, n ∈ db.networks → n ∉ db.subnets →
        ((∃ e, db.insertSubnet n = .error e) ↔ ∀ k < 16384, db.Assigned (virtualIpv4PoolFirst.toNat + 256 * k)) ∧
        ∀ db', db.insertSubnet n = .ok db' → ∃ base : SubnetAddress, IsLeast db.freeSubnets base.val.toNat ∧
          db' = { db with subnets := db.subnets.insert n base }) ∧
      ∀ n d base, db.subnets.lookup n = some base → (n, d) ∈ db.memberships → (n, d) ∉ db.leases →
        ((∃ e, db.insertLease n d = .error e) ↔ ∀ k < 254, db.Leased (base.val.toNat + 1 + k)) ∧
        ∀ db', db.insertLease n d = .ok db' → ∃ a : LeaseAddress, IsLeast (db.freeHosts n) a.val.toNat ∧
          db' = { db with leases := db.leases.insert (n, d) a }) ∧
    ∀ (ops : List StoreOp) (db : Db), db = ops.foldl Db.step {} →
      db.Addressing ∧
      (∀ n network password, db.Creatable n network → db.freeSubnets.Nonempty →
        ∃ (base : SubnetAddress) (a : LeaseAddress), IsLeast db.freeSubnets base.val.toNat ∧ a.val.toNat = base.val.toNat + 1 ∧
          db.createNetwork n network password = .ok ((), { db with toTables := db.create n network base a password })) ∧
      (∀ n d atMs, db.Admissible n d atMs → (db.freeHosts n).Nonempty →
        ∃ a : LeaseAddress, IsLeast (db.freeHosts n) a.val.toNat ∧ db.addMember n d atMs =
          .ok (true, { db with toTables := db.join n d { role := .member, joinedAtMs := atMs } a })) ∧
      (∀ n d db', db.removeMember n d = .ok (true, db') →
        ∃ a, db.leases.lookup (n, d) = some a ∧ a.val.toNat ∈ db'.freeHosts n) ∧
      ∀ n db', db.deleteNetwork n = .ok (true, db') →
        ∃ base, db.subnets.lookup n = some base ∧ base.val.toNat ∈ db'.freeSubnets := by
  refine ⟨fun db h => ⟨fun n hn hnew => ?_, fun n d base hbase hmember hnew => ?_⟩, ?_⟩
  · rw [← Db.freeSubnets_eq_empty]
    rcases Db.insertSubnet_cases db n with ⟨hnone, herror⟩ | ⟨base, hleast, hok⟩
    · refine ⟨by simp [hnone, herror], fun db' hdb' => ?_⟩
      rw [herror] at hdb'
      cases hdb'
    · rw [if_pos ⟨hn, hnew⟩] at hok
      have hsome : db.freeSubnets ≠ ∅ := Set.nonempty_iff_ne_empty.1 ⟨_, hleast.1⟩
      refine ⟨by simp [hok, hsome], fun db' hdb' => ?_⟩
      rw [hok, Except.ok.injEq] at hdb'
      exact ⟨base, hleast, hdb'.symm⟩
  · rw [← Db.freeHosts_eq_empty hbase]
    rcases Db.insertLease_cases h d (Map.mem_of_lookup hbase) with ⟨hnone, herror⟩ | ⟨a, hleast, -, hok⟩
    · refine ⟨by simp [hnone, herror], fun db' hdb' => ?_⟩
      rw [herror] at hdb'
      cases hdb'
    · rw [if_pos ⟨hmember, hnew⟩] at hok
      have hsome : db.freeHosts n ≠ ∅ := Set.nonempty_iff_ne_empty.1 ⟨_, hleast.1⟩
      refine ⟨by simp [hok, hsome], fun db' hdb' => ?_⟩
      rw [hok, Except.ok.injEq] at hdb'
      exact ⟨a, hleast, hdb'.symm⟩
  · rintro ops db rfl
    have hw := Db.wf_reachable (Reachable.init.foldl ops)
    refine ⟨hw.addressed.addressing, ?_, ?_, fun n d db' => Db.mem_freeHosts_of_removed hw,
      fun n db' => Db.mem_freeSubnets_of_deleted hw⟩
    · intro n network password hc hsome
      rcases Db.createNetwork_cases hw hc password with ⟨hnone, -⟩ | hok
      · exact absurd hnone (Set.nonempty_iff_ne_empty.1 hsome)
      · exact hok
    · intro n d atMs hd hsome
      rcases Db.addMember_cases hw hd with ⟨hnone, -⟩ | hok
      · exact absurd hnone (Set.nonempty_iff_ne_empty.1 hsome)
      · exact hok

end LanLink
