import Mathlib.Data.List.Perm.Basic
import Mathlib.Tactic
/-!
# Tilings

Pieces that carry a part of a sequence each and know where it starts. `Tiles`
says that they cover the sequence from left to right, without gap or overlap.
A tile can be tiled in turn, and the sequence can be put together again from
the pieces in whatever order they come.
-/
namespace LanLink.Lib

variable {α β : Type}

/-- The pieces cover `whole`, which begins at `start`. Only a piece that is alone may be empty. -/
inductive Tiles (at' : α → ℕ) (content : α → List β) : ℕ → List α → List β → Prop
  | last (a : α) : Tiles at' content (at' a) [a] (content a)
  | more {a : α} {as : List α} {rest : List β} (hfull : content a ≠ []) (hrest : rest ≠ [])
      (h : Tiles at' content (at' a + (content a).length) as rest) :
      Tiles at' content (at' a) (a :: as) (content a ++ rest)

namespace Tiles
variable {at' : α → ℕ} {content : α → List β} {start : ℕ} {as bs : List α} {whole rest : List β}

theorem ne_nil (h : Tiles at' content start as whole) : as ≠ [] := by
  cases h <;> simp

theorem flatMap_eq (h : Tiles at' content start as whole) : as.flatMap content = whole := by
  induction h with
  | last a => simp
  | more _ _ _ ih => rw [List.flatMap_cons, ih]

theorem start_le (h : Tiles at' content start as whole) : ∀ a ∈ as, start ≤ at' a := by
  induction h with
  | last a => simp
  | more _ _ _ ih =>
    intro b hb
    rcases List.mem_cons.1 hb with rfl | hb
    · exact le_rfl
    · have hle := ih b hb
      omega

/-- The pieces come in the order of their starts. -/
theorem pairwise (h : Tiles at' content start as whole) : as.Pairwise fun a b => at' a < at' b := by
  induction h with
  | last a => exact List.pairwise_singleton _ _
  | more hfull _ h ih =>
    refine List.pairwise_cons.2 ⟨fun b hb => ?_, ih⟩
    have hlength := List.length_pos_of_ne_nil hfull
    have hle := h.start_le b hb
    omega

/-- The first piece is where the whole begins, the others are behind it. -/
theorem head (h : Tiles at' content start as whole) :
    ∃ a rest, as = a :: rest ∧ at' a = start ∧ ∀ b ∈ rest, start < at' b := by
  have hpairwise := h.pairwise
  cases h with
  | last a => exact ⟨a, [], rfl, rfl, by simp⟩
  | more _ _ _ => exact ⟨_, _, rfl, rfl, (List.pairwise_cons.1 hpairwise).1⟩

theorem inj (h : Tiles at' content start as whole) : ∀ a ∈ as, ∀ b ∈ as, at' a = at' b → a = b := by
  have hnodup : (as.map at').Nodup := by
    rw [List.Nodup, List.pairwise_map]
    exact h.pairwise.imp Nat.ne_of_lt
  intro a ha b hb
  exact List.inj_on_of_nodup_map hnodup ha hb

theorem append (h : Tiles at' content start as whole) (hwhole : whole ≠ []) (hrest : rest ≠ [])
    (h' : Tiles at' content (start + whole.length) bs rest) : Tiles at' content start (as ++ bs) (whole ++ rest) := by
  induction h with
  | last a => exact .more hwhole hrest h'
  | more hfull hrest' h ih =>
    rw [List.cons_append, List.append_assoc]
    refine .more hfull (by simp [hrest]) (ih hrest' ?_)
    rwa [List.length_append, ← add_assoc] at h'

/-- Tiles that are tiled themselves. -/
theorem refine {pieces : α → List α} (h : Tiles at' content start as whole)
    (hpieces : ∀ a ∈ as, Tiles at' content (at' a) (pieces a) (content a)) :
    Tiles at' content start (as.flatMap pieces) whole := by
  induction h with
  | last a => simpa using hpieces a List.mem_cons_self
  | more hfull hrest h ih =>
    rw [List.flatMap_cons]
    refine (hpieces _ List.mem_cons_self).append hfull hrest (ih fun b hb => ?_)
    exact hpieces b (List.mem_cons_of_mem _ hb)

end Tiles

/-- The contents of the pieces, in the order of their starts. -/
def assemble (at' : α → ℕ) (content : α → List β) (pieces : List α) : List β :=
  (pieces.mergeSort fun a b => at' a ≤ at' b).flatMap content

/-- Put together, the tiles give the whole, in whatever order they come. -/
theorem Tiles.assemble_perm {at' : α → ℕ} {content : α → List β} {start : ℕ} {as bs : List α} {whole : List β}
    (h : Tiles at' content start as whole) (hperm : bs.Perm as) : assemble at' content bs = whole := by
  have hsorted : (bs.mergeSort fun a b => at' a ≤ at' b).Pairwise fun a b => at' a ≤ at' b := by
    have hpairwise := @List.pairwise_mergeSort α (fun a b => decide (at' a ≤ at' b))
      (fun a b c hab hbc => by simp_all; omega) (fun a b => by simp; omega) bs
    exact hpairwise.imp fun hle => by simpa using hle
  have hsame : (bs.mergeSort fun a b => at' a ≤ at' b) = as := by
    refine List.Perm.eq_of_pairwise ?_ hsorted (h.pairwise.imp Nat.le_of_lt) ((List.mergeSort_perm _ _).trans hperm)
    intro a b ha hb hab hba
    exact h.inj a (hperm.subset ((List.mergeSort_perm _ _).subset ha)) b hb (le_antisymm hab hba)
  rw [assemble, hsame, h.flatMap_eq]

end LanLink.Lib
