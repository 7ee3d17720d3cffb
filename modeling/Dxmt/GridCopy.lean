import Mathlib.Data.Set.Image
import Mathlib.Tactic.SplitIfs

/-!
# Copies over a grid

A copy goes over the indices of a grid of three dimensions and takes the cell `source d` to the cell
`target d`. What it does is the set of these pairs.

* `copies_shift_eq_iff`: two copies to grids laid somewhere in one space are the same exactly where
  the grids are at one place, of one extent, and take the same sources.
* `rowMajor_mod_iff`: the offsets of a grid in rows are exact in `m` places where the last one is.
-/

namespace GridCopy

/-- A place in three dimensions. -/
@[ext] structure Index where
  x : Nat
  y : Nat
  z : Nat
  deriving DecidableEq

namespace Index

instance : Zero Index := ⟨⟨0, 0, 0⟩⟩

instance : Add Index := ⟨fun a b => ⟨a.x + b.x, a.y + b.y, a.z + b.z⟩⟩

@[simp] theorem zero_x : (0 : Index).x = 0 := rfl
@[simp] theorem zero_y : (0 : Index).y = 0 := rfl
@[simp] theorem zero_z : (0 : Index).z = 0 := rfl
@[simp] theorem add_x (a b : Index) : (a + b).x = a.x + b.x := rfl
@[simp] theorem add_y (a b : Index) : (a + b).y = a.y + b.y := rfl
@[simp] theorem add_z (a b : Index) : (a + b).z = a.z + b.z := rfl

protected theorem zero_add (a : Index) : 0 + a = a := by
  ext <;> simp

protected theorem add_zero (a : Index) : a + 0 = a := by
  ext <;> simp

protected theorem add_left_cancel {a b c : Index} (h : a + b = a + c) : b = c := by
  rw [Index.ext_iff] at h
  simp only [add_x, add_y, add_z] at h
  ext <;> omega

/-- Inside the grid of extent `n`. -/
def Below (d n : Index) : Prop :=
  d.x < n.x ∧ d.y < n.y ∧ d.z < n.z

instance (d n : Index) : Decidable (d.Below n) :=
  inferInstanceAs (Decidable (_ ∧ _ ∧ _))

/-- The grid of this extent has no index. -/
def Empty (n : Index) : Prop :=
  n.x = 0 ∨ n.y = 0 ∨ n.z = 0

instance (n : Index) : Decidable n.Empty :=
  inferInstanceAs (Decidable (_ ∨ _ ∨ _))

/-- The first place is in the grid. -/
theorem zero_below {n : Index} (h : ¬ n.Empty) : (0 : Index).Below n := by
  simp only [Empty, not_or] at h
  exact ⟨Nat.pos_of_ne_zero h.1, Nat.pos_of_ne_zero h.2.1, Nat.pos_of_ne_zero h.2.2⟩

theorem Below.not_empty {d n : Index} (h : d.Below n) : ¬ n.Empty := by
  obtain ⟨hx, hy, hz⟩ := h
  simp only [Empty]
  omega

/-- The last index of a grid. -/
def last (n : Index) : Index :=
  ⟨n.x - 1, n.y - 1, n.z - 1⟩

/-- The last place is in the grid. -/
theorem last_below {n : Index} (h : ¬ n.Empty) : n.last.Below n := by
  obtain ⟨hx, hy, hz⟩ := zero_below h
  simp only [zero_x, zero_y, zero_z] at hx hy hz
  simp only [Below, last]
  omega

end Index

open Index

variable {α β : Type*} {n n' o o' : Index}

/-- The pairs of cells, the one written and the one read, of a copy of extent `n`. -/
def copies (n : Index) (target : Index → α) (source : Index → β) : Set (α × β) :=
  {p | ∃ d : Index, d.Below n ∧ p = (target d, source d)}

theorem mem_copies {target : Index → α} {source : Index → β} {p : α × β} :
    p ∈ copies n target source ↔ ∃ d : Index, d.Below n ∧ p = (target d, source d) := Iff.rfl

/-- Only an empty grid copies nothing. -/
theorem copies_eq_empty_iff {target : Index → α} {source : Index → β} :
    copies n target source = ∅ ↔ n.Empty := by
  constructor
  · intro h
    by_contra hne
    have hmem : (target 0, source 0) ∈ copies n target source := ⟨0, zero_below hne, rfl⟩
    rw [h] at hmem
    exact hmem
  · intro h
    refine Set.eq_empty_of_forall_notMem ?_
    rintro p ⟨d, hd, -⟩
    exact hd.not_empty h

theorem copies_of_empty (h : n.Empty) (target : Index → α) (source : Index → β) :
    copies n target source = ∅ :=
  copies_eq_empty_iff.mpr h

/-- Copies are decided by the places in the grid. -/
theorem copies_congr {target target' : Index → α} {source source' : Index → β}
    (ht : ∀ d : Index, d.Below n → target d = target' d)
    (hs : ∀ d : Index, d.Below n → source d = source' d) :
    copies n target source = copies n target' source' := by
  ext p
  simp only [mem_copies]
  refine exists_congr fun d => and_congr_right fun hd => ?_
  rw [ht d hd, hs d hd]

/-- A copy back. -/
theorem copies_swap (target : Index → α) (source : Index → β) :
    copies n target source = Prod.swap '' copies n source target := by
  ext p
  constructor
  · rintro ⟨d, hd, rfl⟩
    exact ⟨_, ⟨d, hd, rfl⟩, rfl⟩
  · rintro ⟨_, ⟨d, hd, rfl⟩, rfl⟩
    exact ⟨d, hd, rfl⟩

section Shift

variable {place : Index → α} (hplace : Function.Injective place) {source source' : Index → β}

/-- Where the first copy writes at `o + d`, the second one does. -/
theorem shift_of_copies_eq
    (h : copies n (fun d => place (o + d)) source = copies n' (fun d => place (o' + d)) source')
    (hinj : Function.Injective place) {d : Index} (hd : d.Below n) :
    ∃ d' : Index, d'.Below n' ∧ o + d = o' + d' ∧ source d = source' d' := by
  have hmem : (place (o + d), source d) ∈ copies n (fun d => place (o + d)) source := ⟨d, hd, rfl⟩
  rw [h] at hmem
  obtain ⟨d', hd', heq⟩ := hmem
  rw [Prod.mk.injEq] at heq
  exact ⟨d', hd', hinj heq.1, heq.2⟩

include hplace

/-- Two grids copy the same to their places exactly where shift and extent agree, or both are empty.
-/
theorem copies_shift_eq_iff :
    copies n (fun d => place (o + d)) source = copies n' (fun d => place (o' + d)) source' ↔
      n.Empty ∧ n'.Empty ∨ o = o' ∧ n = n' ∧ ∀ d : Index, d.Below n → source d = source' d := by
  constructor
  · intro h
    by_cases hn : n.Empty
    · refine .inl ⟨hn, ?_⟩
      rwa [copies_of_empty hn, eq_comm, copies_eq_empty_iff] at h
    · right
      obtain ⟨d, hd, hfirst, -⟩ := shift_of_copies_eq h hplace (zero_below hn)
      have hn' := hd.not_empty
      obtain ⟨d', -, hfirst', -⟩ := shift_of_copies_eq h.symm hplace (zero_below hn')
      have ho : o = o' := by
        rw [Index.ext_iff] at hfirst hfirst'
        simp only [add_x, add_y, add_z, zero_x, zero_y, zero_z] at hfirst hfirst'
        ext <;> omega
      subst ho
      obtain ⟨e, he, hlast, -⟩ := shift_of_copies_eq h hplace (last_below hn)
      obtain ⟨e', he', hlast', -⟩ := shift_of_copies_eq h.symm hplace (last_below hn')
      have hextent : n = n' := by
        rw [← Index.add_left_cancel hlast] at he
        rw [← Index.add_left_cancel hlast'] at he'
        simp only [Below, last] at he he'
        ext <;> omega
      refine ⟨rfl, hextent, fun d hd => ?_⟩
      obtain ⟨d', -, hshift, hsource⟩ := shift_of_copies_eq h hplace hd
      rw [hsource, Index.add_left_cancel hshift]
  · rintro (⟨hn, hn'⟩ | ⟨rfl, rfl, hsource⟩)
    · rw [copies_of_empty hn, copies_of_empty hn']
    · exact copies_congr (fun _ _ => rfl) hsource

/-- The same from the side that is read. -/
theorem copies_from_shift_eq_iff {target target' : Index → β} :
    copies n target (fun d => place (o + d)) = copies n' target' (fun d => place (o' + d)) ↔
      n.Empty ∧ n'.Empty ∨ o = o' ∧ n = n' ∧ ∀ d : Index, d.Below n → target d = target' d := by
  rw [← copies_shift_eq_iff hplace, copies_swap, copies_swap (n := n') target',
    Set.image_eq_image Prod.swap_injective]

end Shift

/-! ## Rows -/

/-- The offset of a cell in rows of cells: the bytes of a cell, of a row and of a slice of rows. -/
def rowMajor (cell row slice : Nat) (d : Index) : Nat :=
  d.z * slice + d.y * row + d.x * cell

@[simp] theorem rowMajor_zero (cell row slice : Nat) : rowMajor cell row slice 0 = 0 := by
  simp [rowMajor]

theorem rowMajor_eq_zero_iff {cell row slice : Nat} (hc : 0 < cell) (hr : 0 < row) (hs : 0 < slice)
    {d : Index} : rowMajor cell row slice d = 0 ↔ d = 0 := by
  simp only [rowMajor, Nat.add_eq_zero_iff, Nat.mul_eq_zero, hc.ne', hr.ne', hs.ne', or_false]
  rw [Index.ext_iff]
  simp only [zero_x, zero_y, zero_z]
  omega

/-- No place is behind the last. -/
theorem rowMajor_le_last (cell row slice : Nat) {d : Index} (h : d.Below n) :
    rowMajor cell row slice d ≤ rowMajor cell row slice n.last := by
  obtain ⟨hx, hy, hz⟩ := h
  simp only [rowMajor, last]
  have hx' := Nat.mul_le_mul_right cell (Nat.le_sub_one_of_lt hx)
  have hy' := Nat.mul_le_mul_right row (Nat.le_sub_one_of_lt hy)
  have hz' := Nat.mul_le_mul_right slice (Nat.le_sub_one_of_lt hz)
  omega

/-- Two slice pitches give the same offsets where the grid has one slice, or they are the same. -/
theorem rowMajor_slice_iff {cell row slice slice' : Nat} (h : ¬ n.Empty) :
    (∀ d : Index, d.Below n → rowMajor cell row slice d = rowMajor cell row slice' d) ↔
      n.z ≤ 1 ∨ slice = slice' := by
  obtain ⟨hx, hy, -⟩ := zero_below h
  constructor
  · intro hall
    by_cases hone : n.z ≤ 1
    · exact .inl hone
    · have hd : (⟨0, 0, 1⟩ : Index).Below n := ⟨hx, hy, not_le.mp hone⟩
      have heq := hall _ hd
      simp only [rowMajor] at heq
      exact .inr (by omega)
  · rintro (hone | rfl) d hd
    · have hz : d.z = 0 := by
        have := hd.2.2
        omega
      simp only [rowMajor, hz, Nat.zero_mul]
    · rfl

/-- A wrapped offset is right for every place exactly where it is right for the last. -/
theorem rowMajor_mod_iff {cell row slice m : Nat} (h : ¬ n.Empty) (hm : 0 < m) :
    (∀ d : Index, d.Below n → rowMajor cell row slice d % m = rowMajor cell row slice d) ↔
      rowMajor cell row slice n.last < m := by
  constructor
  · intro hall
    rw [← hall _ (last_below h)]
    exact Nat.mod_lt _ hm
  · intro hlast d hd
    exact Nat.mod_eq_of_lt (lt_of_le_of_lt (rowMajor_le_last cell row slice hd) hlast)

/-- The offsets of a grid laid at `a` are those from 0 on, with another slice pitch, where it is
laid at the origin. -/
theorem rowMajor_offset_iff {cell row slice : Nat} (slice' : Nat) (a : Index) (hc : 0 < cell)
    (hr : 0 < row) (hs : 0 < slice) (h : ¬ n.Empty) :
    (∀ d : Index, d.Below n → rowMajor cell row slice' d = rowMajor cell row slice (a + d)) ↔
      a = 0 ∧ (n.z ≤ 1 ∨ slice' = slice) := by
  constructor
  · intro hall
    have hfirst := hall 0 (zero_below h)
    rw [rowMajor_zero, Index.add_zero, eq_comm, rowMajor_eq_zero_iff hc hr hs] at hfirst
    subst hfirst
    have hslices : ∀ d : Index, d.Below n → rowMajor cell row slice' d =
        rowMajor cell row slice d := by
      intro d hd
      rw [hall d hd, Index.zero_add]
    exact ⟨rfl, (rowMajor_slice_iff h).mp hslices⟩
  · rintro ⟨rfl, hslice⟩ d hd
    rw [Index.zero_add]
    exact (rowMajor_slice_iff h).mpr hslice d hd

/-- The same for offsets of one slice counted in `scale` bytes, in a word of `m` values. -/
theorem rowMajor_scaled_mod_iff {scale cell row slice m : Nat} (a : Index) (hscale : 0 < scale)
    (hc : 0 < cell) (hr : 0 < row) (hs : 0 < slice) (hm : 0 < m) (h : ¬ n.Empty) (hz : n.z ≤ 1) :
    (∀ d : Index, d.Below n →
        scale * (rowMajor cell row 0 d % m) = rowMajor (scale * cell) (scale * row) slice (a + d)) ↔
      a = 0 ∧ rowMajor cell row 0 n.last < m := by
  have hflat : ∀ d : Index, d.Below n →
      rowMajor (scale * cell) (scale * row) slice d = scale * rowMajor cell row 0 d := by
    intro d hd
    have hdz : d.z = 0 := by
      have := hd.2.2
      omega
    simp only [rowMajor, hdz, Nat.zero_mul, Nat.zero_add, Nat.mul_add]
    rw [Nat.mul_left_comm d.y, Nat.mul_left_comm d.x]
  constructor
  · intro hall
    have hfirst := hall 0 (zero_below h)
    rw [rowMajor_zero, Nat.zero_mod, Nat.mul_zero, Index.add_zero, eq_comm,
      rowMajor_eq_zero_iff (Nat.mul_pos hscale hc) (Nat.mul_pos hscale hr) hs] at hfirst
    subst hfirst
    refine ⟨rfl, (rowMajor_mod_iff h hm).mp fun d hd => ?_⟩
    have heq := hall d hd
    rw [Index.zero_add, hflat d hd] at heq
    exact Nat.eq_of_mul_eq_mul_left hscale heq
  · rintro ⟨rfl, hlast⟩ d hd
    rw [Index.zero_add, hflat d hd, (rowMajor_mod_iff h hm).mpr hlast d hd]

end GridCopy
