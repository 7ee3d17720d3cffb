import Mathlib.Algebra.Group.Nat.Defs
import Mathlib.Data.List.Nodup

/-!
# Copies of rows

A memory is a function on offsets. Rows of one size are stored for the indices of a list, and when
they are apart, each of them holds its data in the end (`storeRows_apply`) and nothing else changes
(`storeRows_frame`). A copy of rows is a `memcpy` for each index.

The rows of a box are at a slice pitch and a row pitch. They are apart when a row fits the row pitch
and the rows of a slice fit the slice pitch (`strided_apart`).
-/

namespace Dxmt

namespace RowCopy

variable {α ι : Type*}

/-- A row of `n` cells at an offset. -/
def storeRow (dst : Nat → α) (o n : Nat) (row : Nat → α) : Nat → α :=
  fun a => if o ≤ a ∧ a < o + n then row (a - o) else dst a

/-- A row for each index. -/
def storeRows (dst : Nat → α) (d : ι → Nat) (n : Nat) (data : ι → Nat → α) (rows : List ι) :
    Nat → α :=
  rows.foldl (fun dst i => storeRow dst (d i) n (data i)) dst

/-- A `memcpy` of `n` cells for each index. -/
def copyRows (dst src : Nat → α) (d s : ι → Nat) (n : Nat) (rows : List ι) : Nat → α :=
  storeRows dst d n (fun i k => src (s i + k)) rows

/-- No two rows share a cell. -/
def Apart (d : ι → Nat) (n : Nat) (rows : List ι) : Prop :=
  rows.Pairwise fun i j => d i + n ≤ d j ∨ d j + n ≤ d i

variable {dst src : Nat → α} {d s : ι → Nat} {n : Nat} {data : ι → Nat →
    α} {rows : List ι} {a : Nat}

theorem storeRow_apply {o k : Nat} {row : Nat → α} (hk : k < n) :
    storeRow dst o n row (o + k) = row k := by
  unfold storeRow
  rw [if_pos (by omega), Nat.add_sub_cancel_left]

theorem storeRow_frame {o : Nat} {row : Nat → α} (h : ¬ (o ≤ a ∧ a < o + n)) :
    storeRow dst o n row a = dst a :=
  if_neg h

/-- Outside the rows nothing changes. -/
theorem storeRows_frame (h : ∀ i ∈ rows, ¬ (d i ≤ a ∧ a < d i + n)) :
    storeRows dst d n data rows a = dst a := by
  unfold storeRows
  induction rows generalizing dst with
  | nil => rfl
  | cons i rows ih =>
    rw [List.foldl_cons, ih fun j hj => h j (List.mem_cons_of_mem _ hj)]
    exact storeRow_frame (h i List.mem_cons_self)

/-- A row that is apart from the others holds its data. -/
theorem storeRows_apply (h : Apart d n rows) {i : ι} (hi : i ∈ rows) {k : Nat} (hk : k < n) :
    storeRows dst d n data rows (d i + k) = data i k := by
  induction rows generalizing dst with
  | nil => exact absurd hi List.not_mem_nil
  | cons j rows ih =>
    obtain ⟨hfirst, hrest⟩ := List.pairwise_cons.mp h
    by_cases hmem : i ∈ rows
    · exact ih hrest hmem
    · obtain rfl : i = j := (List.mem_cons.mp hi).resolve_right hmem
      have hframe := @storeRows_frame _ _ (storeRow dst (d i) n (data i)) d n data rows (d i + k)
        fun l hl => by
          have := hfirst l hl
          omega
      exact hframe.trans (storeRow_apply hk)

theorem copyRows_frame (h : ∀ i ∈ rows, ¬ (d i ≤ a ∧ a < d i + n)) :
    copyRows dst src d s n rows a = dst a :=
  storeRows_frame h

theorem copyRows_apply (h : Apart d n rows) {i : ι} (hi : i ∈ rows) {k : Nat} (hk : k < n) :
    copyRows dst src d s n rows (d i + k) = src (s i + k) :=
  storeRows_apply h hi hk

/-! ## Slices and rows -/

/-- The indices of the rows of some slices, in the order of the loops. -/
def grid (depth rows : Nat) : List (Nat × Nat) :=
  (List.range depth).flatMap fun z => (List.range rows).map fun row => (z, row)

/-- Where a row starts. -/
def strided (slicePitch rowPitch : Nat) (i : Nat × Nat) : Nat :=
  i.1 * slicePitch + i.2 * rowPitch

theorem mem_grid {depth rows : Nat} {i : Nat × Nat} :
    i ∈ grid depth rows ↔ i.1 < depth ∧ i.2 < rows := by
  obtain ⟨z, row⟩ := i
  unfold grid
  rw [List.mem_flatMap]
  constructor
  · rintro ⟨z', hz, h⟩
    obtain ⟨row', hrow, he⟩ := List.mem_map.mp h
    cases he
    exact ⟨List.mem_range.mp hz, List.mem_range.mp hrow⟩
  · rintro ⟨hz, hrow⟩
    exact ⟨z, List.mem_range.mpr hz, List.mem_map.mpr ⟨row, List.mem_range.mpr hrow, rfl⟩⟩

variable {slicePitch rowPitch rowCount depth : Nat}

/-- A row ends inside its slice. -/
theorem row_end_le (hfit : (rowCount - 1) * rowPitch + n ≤ slicePitch) {row : Nat}
    (h : row < rowCount) :
    row * rowPitch + n ≤ slicePitch := by
  have := Nat.mul_le_mul_right rowPitch (Nat.le_sub_one_of_lt h)
  omega

/-- The rows lie inside the slices. -/
theorem strided_end_le (hfit : (rowCount - 1) * rowPitch + n ≤ slicePitch) {i : Nat × Nat}
    (hz : i.1 < depth) (hrow : i.2 < rowCount) :
    strided slicePitch rowPitch i + n ≤ depth * slicePitch := by
  have hend := row_end_le hfit hrow
  have hslice := Nat.mul_le_mul_right slicePitch (Nat.succ_le_of_lt hz)
  rw [Nat.succ_mul] at hslice
  unfold strided
  omega

/-- Two rows are apart: in one slice by the row pitch, else by the slice pitch. -/
theorem strided_apart_of_ne (hrow : n ≤ rowPitch)
    (hfit : (rowCount - 1) * rowPitch + n ≤ slicePitch) {i j : Nat × Nat} (hi : i.2 < rowCount)
    (hj : j.2 < rowCount) (hne : i ≠ j) :
    strided slicePitch rowPitch i + n ≤ strided slicePitch rowPitch j ∨
      strided slicePitch rowPitch j + n ≤ strided slicePitch rowPitch i := by
  obtain ⟨z, row⟩ := i
  obtain ⟨z', row'⟩ := j
  have hend := row_end_le hfit hi
  have hend' := row_end_le hfit hj
  unfold strided
  dsimp only at *
  rcases Nat.lt_trichotomy z z' with hlt | rfl | hlt
  · have := Nat.mul_le_mul_right slicePitch (Nat.succ_le_of_lt hlt)
    rw [Nat.succ_mul] at this
    omega
  · rcases Nat.lt_trichotomy row row' with hlt | rfl | hlt
    · have := Nat.mul_le_mul_right rowPitch (Nat.succ_le_of_lt hlt)
      rw [Nat.succ_mul] at this
      omega
    · exact absurd rfl hne
    · have := Nat.mul_le_mul_right rowPitch (Nat.succ_le_of_lt hlt)
      rw [Nat.succ_mul] at this
      omega
  · have := Nat.mul_le_mul_right slicePitch (Nat.succ_le_of_lt hlt)
    rw [Nat.succ_mul] at this
    omega

theorem grid_nodup (depth rows : Nat) : (grid depth rows).Nodup := by
  unfold grid
  rw [List.nodup_flatMap]
  refine ⟨fun z _ => List.nodup_range.map fun row row' h => (Prod.mk.inj h).2, ?_⟩
  refine List.nodup_range.imp fun {z z'} hne => ?_
  intro i hi hi'
  obtain ⟨_, _, rfl⟩ := List.mem_map.mp hi
  obtain ⟨_, _, h⟩ := List.mem_map.mp hi'
  exact hne (Prod.mk.inj h).1.symm

/-- Offsets that are apart for any two rows of the grid are apart on it. -/
theorem apart_grid {d : Nat × Nat → Nat}
    (h : ∀ i j : Nat × Nat, i.1 < depth → i.2 < rowCount → j.1 < depth → j.2 < rowCount → i ≠ j →
      d i + n ≤ d j ∨ d j + n ≤ d i) : Apart d n (grid depth rowCount) :=
  (grid_nodup depth rowCount).imp_of_mem fun hi hj hne =>
    h _ _ (mem_grid.mp hi).1 (mem_grid.mp hi).2 (mem_grid.mp hj).1 (mem_grid.mp hj).2 hne

end RowCopy

end Dxmt
