import Mathlib.Data.List.Basic
import Mathlib.Algebra.Order.Ring.Nat

/-!
# Regions handed out one after the other

A bump allocator hands out regions from a cursor that it rounds up first. The cursor counts modulo
`M`, which the alignment divides. `fits_iff`: regions of these sizes all end below an aligned bound
exactly when the sum of the rounded sizes is at most the bound, and then they do not overlap
(`pairwise_run`).
-/

namespace Dxmt

namespace BumpAllocator

/-- The least multiple of `a` that is at least `n`. -/
def roundUp (a n : Nat) : Nat :=
  (n + (a - 1)) / a * a

variable {a M : Nat}

theorem dvd_roundUp (a n : Nat) : a ∣ roundUp a n :=
  Nat.dvd_mul_left _ _

theorem le_roundUp (ha : 0 < a) (n : Nat) : n ≤ roundUp a n := by
  have hdiv := Nat.div_add_mod (n + (a - 1)) a
  have hmod := Nat.mod_lt (n + (a - 1)) ha
  rw [roundUp, Nat.mul_comm]
  omega

theorem roundUp_le (ha : 0 < a) {n m : Nat} (hle : n ≤ m) (hm : a ∣ m) : roundUp a n ≤ m := by
  obtain ⟨k, rfl⟩ := hm
  rw [roundUp, Nat.mul_comm]
  refine Nat.mul_le_mul_left a (Nat.le_of_lt_succ ?_)
  rw [Nat.div_lt_iff_lt_mul ha, Nat.succ_mul, Nat.mul_comm k a]
  omega

theorem roundUp_of_dvd (ha : 0 < a) {n : Nat} (hn : a ∣ n) : roundUp a n = n :=
  Nat.le_antisymm (roundUp_le ha (Nat.le_refl n) hn) (le_roundUp ha n)

theorem roundUp_add (ha : 0 < a) {n : Nat} (hn : a ∣ n) (m : Nat) :
    roundUp a (n + m) = n + roundUp a m := by
  refine Nat.le_antisymm (roundUp_le ha ?_ (Nat.dvd_add hn (dvd_roundUp a m))) ?_
  · exact Nat.add_le_add_left (le_roundUp ha m) n
  · have hle : n ≤ roundUp a (n + m) := Nat.le_trans (Nat.le_add_right n m) (le_roundUp ha _)
    have hrest := roundUp_le ha (Nat.le_sub_of_add_le' (le_roundUp ha (n + m)))
      (Nat.dvd_sub (dvd_roundUp a (n + m)) hn)
    omega

/-- The regions for a list of sizes, as offset and size. -/
def run (a M : Nat) (cursor : Nat) : List Nat → List (Nat × Nat)
  | [] => []
  | size :: sizes =>
    let start := roundUp a cursor % M
    (start, size) :: run a M ((start + size) % M) sizes

/-- What the sizes take up. -/
def total (a : Nat) (sizes : List Nat) : Nat :=
  (sizes.map (roundUp a)).sum

theorem dvd_total (a : Nat) (sizes : List Nat) : a ∣ total a sizes := by
  induction sizes with
  | nil => exact Nat.dvd_zero _
  | cons size sizes ih =>
    rw [total, List.map_cons, List.sum_cons]
    exact Nat.dvd_add (dvd_roundUp a size) ih

theorem dvd_of_mem_run (hM : a ∣ M) {cursor : Nat} {sizes : List Nat} {region : Nat × Nat}
    (h : region ∈ run a M cursor sizes) : a ∣ region.1 := by
  induction sizes generalizing cursor with
  | nil => cases h
  | cons size sizes ih =>
    rcases List.mem_cons.mp h with rfl | h
    · exact (Nat.dvd_mod_iff hM).mpr (dvd_roundUp a cursor)
    · exact ih h

/-- **The regions end below the bound** exactly when their rounded sizes fit. -/
theorem fits_iff (ha : 0 < a) {bound : Nat} (hbound : a ∣ bound) (hlt : bound < M)
    (sizes : List Nat) (cursor : Nat) (hcursor : roundUp a cursor ≤ bound) :
    (∀ region ∈ run a M cursor sizes, region.1 + region.2 ≤ bound) ↔
      roundUp a cursor + total a sizes ≤ bound := by
  induction sizes generalizing cursor with
  | nil => exact iff_of_true nofun hcursor
  | cons size sizes ih =>
    have hstart : roundUp a cursor % M = roundUp a cursor := Nat.mod_eq_of_lt (by omega)
    have hround := roundUp_add ha (dvd_roundUp a cursor) size
    rw [run, hstart, total, List.map_cons, List.sum_cons, ← Nat.add_assoc, ← hround]
    rw [List.forall_mem_cons]
    by_cases hend : roundUp a cursor + size ≤ bound
    · have hnext : (roundUp a cursor + size) % M = roundUp a cursor + size :=
        Nat.mod_eq_of_lt (by omega)
      rw [hnext]
      exact (and_iff_right hend).trans (ih _ (roundUp_le ha hend hbound))
    · have hle := le_roundUp ha (roundUp a cursor + size)
      refine iff_of_false (fun h => hend h.1) (by omega)

/-- Regions that fit start at or after the cursor. -/
theorem le_of_mem_run (ha : 0 < a) {bound : Nat} (hlt : bound < M) {sizes : List Nat} {cursor : Nat}
    (hfits : roundUp a cursor + total a sizes ≤ bound) {region : Nat × Nat}
    (h : region ∈ run a M cursor sizes) : roundUp a cursor ≤ region.1 := by
  induction sizes generalizing cursor with
  | nil => cases h
  | cons size sizes ih =>
    have hstart : roundUp a cursor % M = roundUp a cursor := Nat.mod_eq_of_lt (by omega)
    have hround := roundUp_add ha (dvd_roundUp a cursor) size
    have hle := le_roundUp ha (roundUp a cursor + size)
    rw [total, List.map_cons, List.sum_cons, ← Nat.add_assoc, ← hround] at hfits
    have hnext : (roundUp a cursor + size) % M = roundUp a cursor + size :=
      Nat.mod_eq_of_lt (by omega)
    rw [run, hstart, hnext] at h
    rcases List.mem_cons.mp h with rfl | h
    · exact Nat.le_refl _
    · have hrest := ih hfits h
      omega

/-- Regions that fit do not overlap. -/
theorem pairwise_run (ha : 0 < a) {bound : Nat} (hlt : bound < M) (sizes : List Nat) (cursor : Nat)
    (hfits : roundUp a cursor + total a sizes ≤ bound) :
    (run a M cursor sizes).Pairwise fun r s => r.1 + r.2 ≤ s.1 := by
  induction sizes generalizing cursor with
  | nil => exact List.Pairwise.nil
  | cons size sizes ih =>
    have hstart : roundUp a cursor % M = roundUp a cursor := Nat.mod_eq_of_lt (by omega)
    have hround := roundUp_add ha (dvd_roundUp a cursor) size
    have hle := le_roundUp ha (roundUp a cursor + size)
    rw [total, List.map_cons, List.sum_cons, ← Nat.add_assoc, ← hround] at hfits
    have hnext : (roundUp a cursor + size) % M = roundUp a cursor + size :=
      Nat.mod_eq_of_lt (by omega)
    rw [run, hstart, hnext]
    refine List.pairwise_cons.mpr ⟨fun region hregion => ?_, ih _ hfits⟩
    exact Nat.le_trans hle (le_of_mem_run ha hlt hfits hregion)

end BumpAllocator

end Dxmt
