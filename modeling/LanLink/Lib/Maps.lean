import Mathlib.Data.List.AList
import Mathlib.Tactic
/-!
# Finite maps

`Map K V` is Mathlib's association list with unique keys, used as a `std::map`
and as a table with a primary key: `insert` is `insert_or_assign`, `erase`
removes a key, `eraseIf` is `std::erase_if`. Facts about a map are stated
through `lookup`.
-/
namespace LanLink.Lib

/-- A finite map from `K` to `V`. -/
abbrev Map (K V : Type) := AList (fun _ : K => V)

namespace Map
variable {K V : Type} [DecidableEq K]

instance (k : K) (m : Map K V) : Decidable (k ∈ m) := decidable_of_iff _ AList.lookup_isSome

/-- Remove the entries satisfying `p`. -/
def eraseIf (p : K → V → Bool) (m : Map K V) : Map K V where
  entries := m.entries.filter (fun e => !p e.1 e.2)
  nodupKeys := m.nodupKeys.sublist List.filter_sublist

/-- The entries, as pairs. -/
def rows (m : Map K V) : List (K × V) := m.entries.map fun e => (e.1, e.2)

/-- Number of keys. -/
def size (m : Map K V) : Nat := m.entries.length

/-- The value at `k`, or `v` where there is none. -/
def getD (m : Map K V) (k : K) (v : V) : V := (m.lookup k).getD v

theorem mem_iff_lookup {m : Map K V} {k : K} : k ∈ m ↔ ∃ v, m.lookup k = some v := by
  rw [← AList.lookup_isSome, Option.isSome_iff_exists]

theorem mem_of_lookup {m : Map K V} {k : K} {v : V} (h : m.lookup k = some v) : k ∈ m :=
  mem_iff_lookup.2 ⟨v, h⟩

theorem lookup_insert (m : Map K V) (k j : K) (v : V) :
    (m.insert k v).lookup j = if j = k then some v else m.lookup j := by
  split
  · subst j; exact AList.lookup_insert m
  · exact AList.lookup_insert_ne ‹_›

theorem lookup_erase (m : Map K V) (k j : K) : (m.erase k).lookup j = if j = k then none else m.lookup j := by
  split
  · subst j; exact AList.lookup_erase k m
  · exact AList.lookup_erase_ne ‹_›

theorem lookup_eq_some_iff {m : Map K V} {k : K} {v : V} : m.lookup k = some v ↔ ⟨k, v⟩ ∈ m.entries :=
  AList.mem_lookup_iff

theorem lookup_eraseIf (p : K → V → Bool) (m : Map K V) (k : K) :
    (m.eraseIf p).lookup k = (m.lookup k).filter (fun v => !p k v) := by
  ext v
  simp only [lookup_eq_some_iff, eraseIf, List.mem_filter, Option.filter_eq_some_iff]

theorem lookup_eraseIf_eq_some {p : K → V → Bool} {m : Map K V} {k : K} {v : V} :
    (m.eraseIf p).lookup k = some v ↔ m.lookup k = some v ∧ p k v = false := by
  rw [lookup_eraseIf, Option.filter_eq_some_iff]
  simp

theorem mem_of_mem_eraseIf {p : K → V → Bool} {m : Map K V} {k : K} (h : k ∈ m.eraseIf p) : k ∈ m := by
  obtain ⟨v, hv⟩ := mem_iff_lookup.1 h
  exact mem_of_lookup (lookup_eraseIf_eq_some.1 hv).1

theorem mem_eraseIf_key {q : K → Bool} {m : Map K V} {k : K} :
    k ∈ m.eraseIf (fun k _ => q k) ↔ k ∈ m ∧ q k = false := by
  simp only [mem_iff_lookup, lookup_eraseIf_eq_some, exists_and_right]

theorem mem_rows {m : Map K V} {r : K × V} : r ∈ m.rows ↔ m.lookup r.1 = some r.2 := by
  rw [lookup_eq_some_iff]
  simp only [rows, List.mem_map]
  exact ⟨by rintro ⟨e, he, rfl⟩; exact he, fun h => ⟨_, h, rfl⟩⟩

omit [DecidableEq K] in
theorem nodup_rows (m : Map K V) : (m.rows.map Prod.fst).Nodup := by
  have h : m.rows.map Prod.fst = m.entries.keys := by simp [rows, List.keys, Function.comp_def]
  rw [h]
  exact m.nodupKeys

/-- The number of rows that satisfy `p`. -/
def count (p : K × V → Bool) (m : Map K V) : ℕ := (m.rows.filter p).length

/-- Every row that counts in `m'` has its key in `extra` or counts in `m`. -/
theorem count_le {W : Type} {p : K × V → Bool} {q : K × W → Bool} {m' : Map K V} {m : Map K W} (extra : List K)
    (h : ∀ k v, m'.lookup k = some v → p (k, v) → k ∈ extra ∨ ∃ w, m.lookup k = some w ∧ q (k, w)) :
    count p m' ≤ extra.length + count q m := by
  have hnodup : ((m'.rows.filter p).map Prod.fst).Nodup :=
    (nodup_rows m').sublist (List.filter_sublist.map Prod.fst)
  have hsubset : (m'.rows.filter p).map Prod.fst ⊆ extra ++ (m.rows.filter q).map Prod.fst := by
    intro k hk
    obtain ⟨⟨k, v⟩, hrow, rfl⟩ := List.mem_map.1 hk
    obtain ⟨hrow, hp⟩ := List.mem_filter.1 hrow
    rw [List.mem_append]
    rcases h k v (mem_rows.1 hrow) hp with hextra | ⟨w, hw, hpw⟩
    · exact .inl hextra
    · exact .inr (List.mem_map.2 ⟨(k, w), List.mem_filter.2 ⟨mem_rows.2 hw, hpw⟩, rfl⟩)
  have hlength := (hnodup.subperm hsubset).length_le
  rwa [List.length_append, List.length_map, List.length_map] at hlength

omit [DecidableEq K] in
/-- A table with fewer keys is smaller. -/
theorem size_le {W : Type} {m' : Map K V} {m : Map K W} (h : ∀ k ∈ m', k ∈ m) : m'.size ≤ m.size := by
  have hkeys : m'.entries.keys ⊆ m.entries.keys := fun k hk => h k hk
  have hle := (m'.nodupKeys.subperm hkeys).length_le
  rwa [List.keys, List.keys, List.length_map, List.length_map] at hle

omit [DecidableEq K] in
/-- A table is no larger than a set of which its keys are images. -/
theorem size_le_card {ι : Type} {m : Map K V} (s : Finset ι) (f : ι → K) (h : ∀ k ∈ m, ∃ i ∈ s, f i = k) : m.size ≤ s.card := by
  classical
  have hkeys : m.entries.keys.toFinset ⊆ s.image f := by
    intro k hk
    obtain ⟨i, hi, rfl⟩ := h k (List.mem_toFinset.1 hk)
    exact Finset.mem_image_of_mem f hi
  calc m.size = m.entries.keys.length := (List.length_map _).symm
    _ = m.entries.keys.toFinset.card := (List.toFinset_card_of_nodup m.nodupKeys).symm
    _ ≤ (s.image f).card := Finset.card_le_card hkeys
    _ ≤ s.card := Finset.card_image_le

theorem rows_insert_of_notMem {m : Map K V} {k : K} (h : k ∉ m) (v : V) : rows (m.insert k v) = (k, v) :: m.rows := by
  rw [rows, AList.entries_insert_of_notMem h, List.map_cons, rows]

omit [DecidableEq K] in
theorem size_eq (m : Map K V) : m.size = m.rows.length := by rw [rows, List.length_map, size]

/-! ## Columns without duplicates -/

/-- No two rows agree in the column `f`. -/
def Distinct {W : Type} (f : V → W) (m : Map K V) : Prop :=
  ∀ j k a b, m.lookup j = some a → m.lookup k = some b → f a = f b → j = k

theorem Distinct.insert {W : Type} {f : V → W} {m : Map K V} (h : Distinct f m) (k : K) {v : V}
    (hv : ∀ j a, m.lookup j = some a → f a ≠ f v) : Distinct f (m.insert k v) := by
  intro i j a b hi hj hab
  rw [lookup_insert] at hi hj
  split at hi <;> split at hj
  · simp_all
  · cases hi; exact absurd hab.symm (hv j b hj)
  · cases hj; exact absurd hab (hv i a hi)
  · exact h i j a b hi hj hab

/-- The column itself has no duplicates. -/
theorem Distinct.nodup {W : Type} {f : V → W} {m : Map K V} (h : Distinct f m) : (m.rows.map fun row => f row.2).Nodup := by
  refine List.Nodup.map_on ?_ (nodup_rows m).of_map
  rintro ⟨j, a⟩ hj ⟨k, b⟩ hk hab
  rw [mem_rows] at hj hk
  dsimp only at hj hk
  obtain rfl := h j k a b hj hk hab
  rw [hj, Option.some.injEq] at hk
  rw [hk]

theorem Distinct.mono {W : Type} {f : V → W} {m m' : Map K V} (h : Distinct f m)
    (hsub : ∀ k v, m'.lookup k = some v → m.lookup k = some v) : Distinct f m' :=
  fun j k a b hj hk hab => h j k a b (hsub j a hj) (hsub k b hk) hab

theorem lookup_of_lookup_erase {m : Map K V} {k j : K} {v : V} (h : (m.erase k).lookup j = some v) :
    m.lookup j = some v := by
  rw [lookup_erase] at h
  split at h
  · cases h
  · exact h

@[simp] theorem getD_insert_self (m : Map K V) (k : K) (v w : V) : getD (m.insert k v) k w = v := by
  simp [getD]

theorem getD_insert_of_ne (m : Map K V) {k j : K} (v w : V) (h : j ≠ k) :
    getD (m.insert k v) j w = getD m j w := by
  simp [getD, AList.lookup_insert_ne h]

end Map

end LanLink.Lib
