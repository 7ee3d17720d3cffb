import Mathlib.Algebra.Order.Ring.Nat
import Mathlib.Data.Finset.Card
import Mathlib.Data.List.Basic
import Mathlib.Order.Interval.Finset.Nat

/-!
# Intervals, and writes one over the other

Two general facts about copies into a range of cells. Intervals that do not overlap have at most the
length of what they lie in. And what a cell holds after a list of writes is known from the writes
that cover it: the last one decides, and where they all agree their order does not matter
(`run_eq_of_agree`).
-/

namespace Dxmt

/-! ## Intervals -/

namespace Intervals

/-- The cells from `a` to `b` are outside the interval. -/
def Avoids (a b : Nat) (r : Nat × Nat) : Prop := r.2 ≤ a ∨ b ≤ r.1

variable {a b N : Nat} {r s : Nat × Nat} {ranges : List (Nat × Nat)}

/-- What avoids two intervals that overlap or touch avoids their hull. -/
theorem avoids_hull (hab : a < b) (hrs : s.1 ≤ r.2) (hsr : r.1 ≤ s.2) :
    Avoids a b (min r.1 s.1, max r.2 s.2) ↔ Avoids a b r ∧ Avoids a b s := by
  simp only [Avoids]
  omega

/-- Sorted intervals with gaps between them. -/
structure Separated (ranges : List (Nat × Nat)) : Prop where
  ordered : ∀ r ∈ ranges, r.1 ≤ r.2
  apart : ranges.Pairwise fun r s => r.2 < s.1

theorem Separated.nil : Separated [] := ⟨nofun, .nil⟩

theorem Separated.tail (h : Separated (r :: ranges)) : Separated ranges :=
  ⟨fun s hs => h.ordered s (List.mem_cons_of_mem _ hs), (List.pairwise_cons.mp h.apart).2⟩

theorem Separated.sublist {part : List (Nat × Nat)} (h : Separated ranges)
    (hpart : part.Sublist ranges) :
    Separated part :=
  ⟨fun r hr => h.ordered r (hpart.subset hr), h.apart.sublist hpart⟩

/-- The cells of a list of intervals. -/
def cells (ranges : List (Nat × Nat)) : Finset Nat :=
  ranges.foldr (fun r rest => Finset.Ico r.1 r.2 ∪ rest) ∅

theorem mem_cells {x : Nat} : x ∈ cells ranges ↔ ∃ r ∈ ranges, r.1 ≤ x ∧ x < r.2 := by
  induction ranges with
  | nil => simp [cells]
  | cons r ranges ih =>
    rw [cells, List.foldr_cons, Finset.mem_union, Finset.mem_Ico, List.exists_mem_cons_iff]
    exact or_congr Iff.rfl ih

theorem card_cells (h : ranges.Pairwise fun r s => Avoids r.1 r.2 s) :
    (cells ranges).card = (ranges.map fun r => r.2 - r.1).sum := by
  induction ranges with
  | nil => rfl
  | cons r ranges ih =>
    obtain ⟨hhead, hrest⟩ := List.pairwise_cons.mp h
    have hdisjoint : Disjoint (Finset.Ico r.1 r.2) (cells ranges) := by
      rw [Finset.disjoint_left]
      intro x hx hmem
      obtain ⟨s, hs, hsx⟩ := mem_cells.mp hmem
      rw [Finset.mem_Ico] at hx
      rcases hhead s hs with hle | hle <;> omega
    calc (Finset.Ico r.1 r.2 ∪ cells ranges).card = (r.2 - r.1) + (cells ranges).card := by
          rw [Finset.card_union_of_disjoint hdisjoint, Nat.card_Ico]
      _ = _ := by rw [ih hrest, List.map_cons, List.sum_cons]

/-- Intervals below `N` that do not overlap have at most `N` cells together. -/
theorem sum_lengths_le (h : ranges.Pairwise fun r s => Avoids r.1 r.2 s)
    (hN : ∀ r ∈ ranges, r.2 ≤ N) :
    (ranges.map fun r => r.2 - r.1).sum ≤ N := by
  have hsubset : cells ranges ⊆ Finset.range N := by
    intro x hx
    obtain ⟨r, hr, hrx⟩ := mem_cells.mp hx
    have hle := hN r hr
    rw [Finset.mem_range]
    omega
  calc (ranges.map fun r => r.2 - r.1).sum = (cells ranges).card := (card_cells h).symm
    _ ≤ (Finset.range N).card := Finset.card_le_card hsubset
    _ = N := Finset.card_range N

end Intervals

/-! ## Writes -/

namespace Overwrite

/-- Values for the cells from an offset on. -/
structure Write (α : Type*) where
  offset : Nat
  values : List α

namespace Write

variable {α : Type*} {w : Write α} {ws : List (Write α)} {mem : Nat → α} {x : Nat}

/-- The place after the last. -/
def stop (w : Write α) : Nat := w.offset + w.values.length

/-- The overwrite covers the place. -/
def Covers (w : Write α) (x : Nat) : Prop := w.offset ≤ x ∧ x < w.stop

/-- The memory after the overwrite. -/
def apply (mem : Nat → α) (w : Write α) : Nat → α := fun x =>
  if w.offset ≤ x then (w.values[x - w.offset]?).getD (mem x) else mem x

/-- One write after the other. -/
def run (mem : Nat → α) (ws : List (Write α)) : Nat → α := ws.foldl apply mem

@[simp] theorem run_nil (mem : Nat → α) : run mem [] = mem := rfl

@[simp] theorem run_cons (mem : Nat → α) (w : Write α) (ws : List (Write α)) :
    run mem (w :: ws) = run (apply mem w) ws := rfl

theorem run_append (mem : Nat → α) (ws ws' : List (Write α)) :
    run mem (ws ++ ws') = run (run mem ws) ws' := List.foldl_append

/-- The value a write has for a cell that it covers. -/
def At (w : Write α) (x : Nat) (value : α) :
    Prop := w.offset ≤ x ∧ w.values[x - w.offset]? = some value

theorem At.covers {value : α} (h : w.At x value) : w.Covers x := by
  obtain ⟨hlt, -⟩ := List.getElem?_eq_some_iff.mp h.2
  have hle := h.1
  exact ⟨hle, by rw [stop]; omega⟩

theorem Covers.exists_at (h : w.Covers x) : ∃ value, w.At x value := by
  have hlt : x - w.offset < w.values.length := by
    have hle := h.1
    have hstop := h.2
    rw [stop] at hstop
    omega
  exact ⟨w.values[x - w.offset], h.1, List.getElem?_eq_getElem hlt⟩

theorem apply_of_at {value : α} (h : w.At x value) : apply mem w x = value := by
  rw [apply, if_pos h.1, h.2, Option.getD_some]

theorem apply_of_not_covers (h : ¬w.Covers x) : apply mem w x = mem x := by
  rw [apply]
  split
  · next hle =>
    have hlength : w.values.length ≤ x - w.offset := by
      by_contra hlt
      exact h ⟨hle, by rw [stop]; omega⟩
    rw [List.getElem?_eq_none hlength, Option.getD_none]
  · rfl

/-- A cell that no write covers keeps its value. -/
theorem run_of_not_covers (h : ∀ w ∈ ws, ¬w.Covers x) : run mem ws x = mem x := by
  induction ws generalizing mem with
  | nil => rfl
  | cons w ws ih =>
    rw [run_cons, ih fun v hv => h v (List.mem_cons_of_mem _ hv),
      apply_of_not_covers (h w List.mem_cons_self)]

/-- The last write that covers a cell decides. -/
theorem run_of_last {before after : List (Write α)} {value : α} (hw : w.At x value)
    (hafter : ∀ v ∈ after, ¬v.Covers x) : run mem (before ++ w :: after) x = value := by
  rw [run_append, run_cons, run_of_not_covers hafter, apply_of_at hw]

/-- Where the writes that cover a cell agree, it holds what they say. -/
theorem run_eq_of_agree {value : α} (hcovered : ∃ w ∈ ws, w.Covers x)
    (hagree : ∀ w ∈ ws, w.Covers x → w.At x value) : run mem ws x = value := by
  induction ws generalizing mem with
  | nil => simp at hcovered
  | cons w ws ih =>
    rw [run_cons]
    by_cases hrest : ∃ v ∈ ws, v.Covers x
    · exact ih hrest fun v hv => hagree v (List.mem_cons_of_mem _ hv)
    · push Not at hrest
      rw [run_of_not_covers hrest]
      obtain ⟨v, hv, hcovers⟩ := hcovered
      rcases List.mem_cons.mp hv with rfl | hv
      · exact apply_of_at (hagree v List.mem_cons_self hcovers)
      · exact absurd hcovers (hrest v hv)

end Write

end Overwrite

end Dxmt
