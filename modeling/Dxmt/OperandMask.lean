import Mathlib.Data.BitVec

/-!
# Component masks and swizzles of an operand

A mask has a bit for each of the four components of a register, and a swizzle names a source
component for each of them. `EnumerateComponents` counts the bits off from the lowest one.

Source: `nt/dxbc_converter_base.hpp:307-433`.
-/

namespace Dxmt

namespace Airconv

/-- `mask_t`, of which only `kMaskAll` counts. -/
abbrev Mask := BitVec 4

/-- Which component each component is taken from. -/
abbrev Swizzle := Fin 4 → Fin 4

/-- The component of a value that has only one. -/
abbrev firstComponent : Fin 4 := 0

namespace Mask

/-- The mask has the component. -/
def test (mask : Mask) (c : Fin 4) : Bool := mask.getLsbD c

/-- The components of the mask. -/
def components (mask : Mask) : List (Fin 4) := [0, 1, 2, 3].filter mask.test

/-- The mask of one component. -/
def single (c : Fin 4) : Mask := 1#4 <<< c.val

/-- `__builtin_ctz`, on a mask that is not empty. -/
def ctz (mask : Mask) : Fin 4 :=
  if mask.test 0 then 0 else if mask.test 1 then 1 else if mask.test 2 then 2 else 3

end Mask

/-- The loop of `EnumerateComponents`: the lowest component with its number, and the mask without
it. -/
def enumerateFrom : Nat → Nat → Mask → List (Fin 4 × Nat)
  | 0, _, _ => []
  | fuel + 1, index, mask =>
    if mask = 0 then []
    else (Mask.ctz mask, index) :: enumerateFrom fuel (index + 1) (mask &&& (mask - 1))

/-- The components of the mask, each with its place among them. -/
def enumerateComponents (mask : Mask) : List (Fin 4 × Nat) := enumerateFrom 4 0 mask

/-- The components of the source that the mask touches through the swizzle. -/
def memoryAccessMask (mask : Mask) (swizzle : Swizzle) : Mask :=
  [0, 1, 2, 3].foldl
    (fun ret bit => if mask.test bit then ret ||| Mask.single (swizzle bit) else ret) 0

/-- The component that all of the mask comes from; `none` stands for -1. -/
def componentFromScalarMask (mask : Mask) (swizzle : Swizzle) : Option (Fin 4) :=
  if mask = 0b1 then some (swizzle 0)
  else if mask = 0b10 then some (swizzle 1)
  else if mask = 0b100 then some (swizzle 2)
  else if mask = 0b1000 then some (swizzle 3)
  else
    let accessMask := memoryAccessMask mask swizzle
    if accessMask = 0b1 ∨ accessMask = 0b10 ∨ accessMask = 0b100 ∨ accessMask = 0b1000 then
      some (Mask.ctz accessMask)
    else none

variable {mask : Mask} {swizzle : Swizzle} {c : Fin 4}

@[simp] theorem Mask.mem_components : c ∈ mask.components ↔ mask.test c = true := by
  unfold Mask.components
  rw [List.mem_filter]
  refine and_iff_right ?_
  revert c
  decide

/-- The loop goes through the components in order, and has fuel enough. -/
theorem enumerateComponents_eq (mask : Mask) :
    enumerateComponents mask = mask.components.zipIdx := by
  revert mask
  decide

theorem map_enumerateComponents (mask : Mask) :
    (enumerateComponents mask).map Prod.fst = mask.components := by
  rw [enumerateComponents_eq, List.zipIdx_map_fst]

theorem Mask.test_single (b d : Fin 4) : (Mask.single b).test d = decide (b = d) := by
  revert b d
  decide

theorem Mask.test_or (a b : Mask) (d : Fin 4) : (a ||| b).test d = (a.test d || b.test d) :=
  BitVec.getLsbD_or

theorem Mask.test_zero (d : Fin 4) : Mask.test 0 d = false := by
  revert d
  decide

/-- The touched components are the swizzled ones. -/
theorem test_memoryAccessMask :
    (memoryAccessMask mask swizzle).test c = true ↔ ∃ d, mask.test d = true ∧ swizzle d = c := by
  have hbit (ret : Mask) (bit : Fin 4) :
      (if mask.test bit then ret ||| Mask.single (swizzle bit) else ret).test c = true ↔
        ret.test c = true ∨ mask.test bit = true ∧ swizzle bit = c := by
    by_cases hm : mask.test bit = true
    · rw [if_pos hm, Mask.test_or, Bool.or_eq_true, Mask.test_single, decide_eq_true_iff,
        and_iff_right hm]
    · rw [if_neg hm]
      exact (or_iff_left fun h => hm h.1).symm
  unfold memoryAccessMask
  simp only [List.foldl_cons, List.foldl_nil, hbit, Mask.test_zero, Bool.false_eq_true, false_or]
  constructor
  · rintro (((h | h) | h) | h)
    · exact ⟨0, h⟩
    · exact ⟨1, h⟩
    · exact ⟨2, h⟩
    · exact ⟨3, h⟩
  · rintro ⟨d, h⟩
    match d with
    | 0 => exact Or.inl (Or.inl (Or.inl h))
    | 1 => exact Or.inl (Or.inl (Or.inr h))
    | 2 => exact Or.inl (Or.inr h)
    | 3 => exact Or.inr h

/-- A mask of one bit. -/
theorem Mask.eq_single (h : mask = 0b1 ∨ mask = 0b10 ∨ mask = 0b100 ∨ mask = 0b1000) :
    mask.test mask.ctz = true ∧ ∀ d, mask.test d = true → d = mask.ctz := by
  rcases h with rfl | rfl | rfl | rfl <;> decide

/-- The scalar component is the only one that the mask touches. -/
theorem componentFromScalarMask_spec (h : componentFromScalarMask mask swizzle = some c) :
    (∃ d, mask.test d = true) ∧ ∀ d, mask.test d = true → swizzle d = c := by
  unfold componentFromScalarMask at h
  have hone (b : Fin 4) (hb : ∀ d, mask.test d = true ↔ d = b) (hc : some (swizzle b) = some c) :
      (∃ d, mask.test d = true) ∧ ∀ d, mask.test d = true → swizzle d = c := by
    cases hc
    exact ⟨⟨b, (hb b).mpr rfl⟩, fun d hd => congrArg swizzle ((hb d).mp hd)⟩
  split at h
  case isTrue hm => exact hone 0 (hm ▸ by decide) h
  split at h
  case isTrue hm => exact hone 1 (hm ▸ by decide) h
  split at h
  case isTrue hm => exact hone 2 (hm ▸ by decide) h
  split at h
  case isTrue hm => exact hone 3 (hm ▸ by decide) h
  dsimp only at h
  split at h
  case isTrue ha =>
    cases h
    obtain ⟨hmem, hall⟩ := Mask.eq_single ha
    obtain ⟨d, hd, -⟩ := test_memoryAccessMask.mp hmem
    exact ⟨⟨d, hd⟩, fun e he => hall _ (test_memoryAccessMask.mpr ⟨e, he, rfl⟩)⟩
  case isFalse => cases h

end Airconv

end Dxmt
