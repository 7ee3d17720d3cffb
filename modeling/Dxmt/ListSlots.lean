import Mathlib.Data.List.Nodup
import Mathlib.Data.List.Pairwise

/-!
# Lists with slots

A list of parties, each with a list of what it holds. The modules on ownership use what happens to
the whole when one party changes, and that a thing held once has one holder.
-/

namespace Dxmt

variable {α β : Type*} [DecidableEq β] {f : α → List β} {xs : List α} {i : Nat} {x : α}

theorem count_flatMap_set (h : xs[i]? = some x) (f : α → List β) (y : α) (b : β) :
    ((xs.set i y).flatMap f).count b + (f x).count b = (xs.flatMap f).count b + (f y).count b := by
  induction xs generalizing i with
  | nil => cases h
  | cons z xs ih =>
    cases i with
    | zero =>
      cases h
      simp only [List.set_cons_zero, List.flatMap_cons, List.count_append]
      omega
    | succ i =>
      have := ih h
      simp only [List.set_cons_succ, List.flatMap_cons, List.count_append]
      omega

omit [DecidableEq β] in
theorem holder_unique (h : (xs.flatMap f).Nodup) {y : α} {b : β} (hx : x ∈ xs) (hy : y ∈ xs)
    (hbx : b ∈ f x) (hby : b ∈ f y) : x = y := by
  by_contra hne
  have hdisj := (List.nodup_flatMap.mp h).2
  have : Std.Symm (Function.onFun List.Disjoint f) := ⟨fun _ _ hd b hy hx => hd hx hy⟩
  exact hdisj.forall hx hy hne hbx hby

omit [DecidableEq β] in
theorem holder_index_unique (h : (xs.flatMap f).Nodup) {j : Nat} {y : α} {b : β}
    (hx : xs[i]? = some x) (hy : xs[j]? = some y) (hbx : b ∈ f x) (hby : b ∈ f y) : i = j := by
  obtain ⟨hi, rfl⟩ := List.getElem?_eq_some_iff.mp hx
  obtain ⟨hj, rfl⟩ := List.getElem?_eq_some_iff.mp hy
  have hdisj := List.pairwise_iff_getElem.mp (List.nodup_flatMap.mp h).2
  obtain hlt | heq | hlt := Nat.lt_trichotomy i j
  · exact absurd hby (hdisj i j hi hj hlt hbx)
  · exact heq
  · exact absurd hbx (hdisj j i hj hi hlt hby)

omit [DecidableEq β] in
theorem mem_of_mem_flatMap_set (h : xs[i]? = some x) {y z : α} (hz : z ∈ xs) (hne : z ≠ x) :
    z ∈ xs.set i y := by
  obtain ⟨j, hj, rfl⟩ := List.getElem_of_mem hz
  have hij : i ≠ j := by
    rintro rfl
    rw [List.getElem?_eq_getElem hj] at h
    exact hne (Option.some.inj h)
  rw [← List.getElem_set_ne hij (a := y) (by rwa [List.length_set])]
  exact List.getElem_mem _

end Dxmt
