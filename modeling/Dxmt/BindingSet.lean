import Mathlib.Logic.Function.Basic

/-!
# Binding sets: `BindingSet`

An array of binding slots with three bits a slot: bound, dirty, and hazard. A slot is bound when
`storage` has an element there. The hazard bit is written by the first `bind` of a slot and by
`unbind`; a `bind` over a bound slot keeps the bit of the element before.

`HazardExact` says that the bits are those of the elements in the slots; `HazardExact.bind` has the
condition under which a `bind` keeps it.

Source: `dxmt_binding_set.hpp:19-244`.
-/

namespace Dxmt

/-- `redundant_binding_trait`. -/
class RedundantBindingTrait (Element : Type*) where
  isRedundant : Element → Element → Bool

/-- What is bound in each slot, and which slots are dirty or watched for hazards. -/
structure BindingSet (Element : Type*) where
  dirty : Nat → Bool := fun _ => false
  hazard : Nat → Bool := fun _ => false
  storage : Nat → Option Element := fun _ => none

namespace BindingSet

variable {Element : Type*}

/-- `test_bound`. -/
def testBound (s : BindingSet Element) (slot : Nat) : Bool := (s.storage slot).isSome

/-- `test_dirty`. -/
def testDirty (s : BindingSet Element) (slot : Nat) : Bool := s.dirty slot

/-- `any_dirty_masked`, over the slots of the mask. -/
def anyDirtyMasked (s : BindingSet Element) (mask : List Nat) : Bool := mask.any s.dirty

/-- `any_bound_masked`. -/
def anyBoundMasked (s : BindingSet Element) (mask : List Nat) : Bool := mask.any s.testBound

/-- `clear_dirty()`. -/
def clearDirty (s : BindingSet Element) : BindingSet Element := { s with dirty := fun _ => false }

/-- `set_dirty()`. -/
def setDirty (s : BindingSet Element) : BindingSet Element := { s with dirty := fun _ => true }

/-- `set_dirty(slot)`. -/
def setDirtySlot (s : BindingSet Element) (slot : Nat) : BindingSet Element :=
  { s with dirty := Function.update s.dirty slot true }

/-- An assignment to the entry that `bind` returned. -/
def assign (s : BindingSet Element) (slot : Nat) (element : Element) : BindingSet Element :=
  { s with storage := Function.update s.storage slot (some element) }

/-- `bind`, with `replacement`. -/
def bind [RedundantBindingTrait Element] (s : BindingSet Element) (slot : Nat) (element : Element)
    (hazard : Bool) : BindingSet Element × Bool :=
  match s.storage slot with
  | some old =>
    if RedundantBindingTrait.isRedundant old element then (s, false)
    else
      ({ s with
          storage := Function.update s.storage slot (some element)
          dirty := Function.update s.dirty slot true },
        true)
  | none =>
    ({ s with
        hazard := Function.update s.hazard slot hazard
        storage := Function.update s.storage slot (some element)
        dirty := Function.update s.dirty slot true },
      true)

/-- `unbind`: whether something was bound. -/
def unbind (s : BindingSet Element) (slot : Nat) : BindingSet Element × Bool :=
  if s.testBound slot then
    ({ s with
        storage := Function.update s.storage slot none
        hazard := Function.update s.hazard slot false
        dirty := Function.update s.dirty slot true },
      true)
  else (s, false)

/-- One turn of a loop over the hazard bits that unbinds the slots whose element is met by `p`. -/
def resolveSlot (p : Element → Bool) (s : BindingSet Element) (slot : Nat) : BindingSet Element :=
  if s.hazard slot && (s.storage slot).any p then (s.unbind slot).1 else s

/-- The loop from `hazard_begin` to `hazard_end`, over `n` slots. -/
def resolveHazards (s : BindingSet Element) (n : Nat) (p : Element → Bool) : BindingSet Element :=
  (List.range n).foldl (resolveSlot p) s

/-! ## What the operations leave in the slots -/

variable {s : BindingSet Element} {slot n : Nat} {p : Element → Bool}

/-- Unbinding empties the slot. -/
@[simp]
theorem storage_unbind (s : BindingSet Element) (slot : Nat) :
    (s.unbind slot).1.storage = Function.update s.storage slot none := by
  unfold unbind
  split
  · rfl
  · next h =>
    have hnone : s.storage slot = none := by simpa [testBound] using h
    funext i
    by_cases hi : i = slot
    · rw [hi, Function.update_self, hnone]
    · rw [Function.update_of_ne hi]

theorem storage_assign (s : BindingSet Element) (slot : Nat) (element : Element) :
    (s.assign slot element).storage = Function.update s.storage slot (some element) := rfl

section Bind

variable [RedundantBindingTrait Element]

/-- When only an element itself is redundant with it, the slot has the element afterwards. -/
theorem storage_bind
    (hred : ∀ a b : Element, RedundantBindingTrait.isRedundant a b = true → a = b)
    (s : BindingSet Element) (slot : Nat) (element : Element) (hazard : Bool) :
    (s.bind slot element hazard).1.storage = Function.update s.storage slot (some element) := by
  unfold bind
  split
  · next old hold =>
    split
    · next h =>
      cases hred _ _ h
      funext i
      by_cases hi : i = slot
      · rw [hi, Function.update_self, hold]
      · rw [Function.update_of_ne hi]
    · rfl
  · rfl

/-- A binding that is kept was there. -/
theorem bind_kept {t : BindingSet Element} {element : Element} {hazard : Bool}
    (h : s.bind slot element hazard = (t, false)) :
    t = s ∧ ∃ old, s.storage slot = some old ∧
      RedundantBindingTrait.isRedundant old element = true := by
  unfold bind at h
  split at h
  · next old hold =>
    split at h
    · next hsame =>
      cases h
      exact ⟨rfl, old, hold, hsame⟩
    · cases h
  · cases h

/-- A binding that is replaced is in its slot, dirty. -/
theorem bind_replaced {t : BindingSet Element} {element : Element} {hazard : Bool}
    (h : s.bind slot element hazard = (t, true)) :
    t.storage = Function.update s.storage slot (some element) := by
  unfold bind at h
  split at h
  · split at h
    · cases h
    · cases h
      rfl
  · cases h
    rfl

end Bind

/-! ## The hazard bits -/

/-- The bit of every slot is that of the element in it. -/
def HazardExact (conflicts : Element → Bool) (s : BindingSet Element) : Prop :=
  ∀ slot, s.hazard slot = (s.storage slot).any conflicts

variable {conflicts : Element → Bool}

/-- An empty slot has no hazard. -/
theorem HazardExact.unbind (h : HazardExact conflicts s) (slot : Nat) :
    HazardExact conflicts (s.unbind slot).1 := by
  unfold BindingSet.unbind
  split
  · intro i
    by_cases hi : i = slot
    · simp [hi]
    · simpa [hi] using h i
  · exact h

/-- A `bind` over a bound slot must not change what the bit says. -/
theorem HazardExact.bind [RedundantBindingTrait Element] (h : HazardExact conflicts s)
    {element : Element} {hazard : Bool} (hnew : hazard = conflicts element)
    (hold : ∀ old, s.storage slot = some old → conflicts old = conflicts element) :
    HazardExact conflicts (s.bind slot element hazard).1 := by
  unfold BindingSet.bind
  split
  · next old hs =>
    split
    · exact h
    · intro i
      by_cases hi : i = slot
      · have := h slot
        rw [hs] at this
        simpa [hi, hold old hs] using this
      · simpa [hi] using h i
  · intro i
    by_cases hi : i = slot
    · simp [hi, hnew]
    · simpa [hi] using h i

theorem HazardExact.setDirtySlot (h : HazardExact conflicts s) (slot : Nat) :
    HazardExact conflicts (s.setDirtySlot slot) := h

theorem HazardExact.assign (h : HazardExact conflicts s) {element old : Element}
    (hold : s.storage slot = some old) (hsame : conflicts old = conflicts element) :
    HazardExact conflicts (s.assign slot element) := by
  intro i
  unfold BindingSet.assign
  by_cases hi : i = slot
  · have := h slot
    rw [hold] at this
    simpa [hi, ← hsame] using this
  · simpa [hi] using h i

theorem HazardExact.resolveSlot (h : HazardExact conflicts s) (p : Element → Bool) (slot : Nat) :
    HazardExact conflicts (s.resolveSlot p slot) := by
  unfold BindingSet.resolveSlot
  split
  · exact h.unbind slot
  · exact h

/-- Resolving hazards keeps their bits exact. -/
theorem HazardExact.resolveHazards (h : HazardExact conflicts s) (n : Nat) (p : Element → Bool) :
    HazardExact conflicts (s.resolveHazards n p) := by
  unfold BindingSet.resolveHazards
  induction n with
  | zero => exact h
  | succ n ih =>
    rw [List.range_succ, List.foldl_append]
    exact ih.resolveSlot p n

/-! ## The loop over the hazard bits -/

theorem storage_resolveSlot_of_ne {i : Nat} (hi : i ≠ slot) :
    (s.resolveSlot p slot).storage i = s.storage i := by
  unfold resolveSlot
  split
  · rw [storage_unbind, Function.update_of_ne hi]
  · rfl

/-- A slot is emptied where its element is hit. -/
theorem storage_resolveSlot_self (s : BindingSet Element) (p : Element → Bool) (slot : Nat) :
    (s.resolveSlot p slot).storage slot =
      if s.hazard slot && (s.storage slot).any p then none else s.storage slot := by
  unfold resolveSlot
  split
  · rw [storage_unbind, Function.update_self]
  · rfl

theorem hazard_resolveSlot_of_ne {i : Nat} (hi : i ≠ slot) :
    (s.resolveSlot p slot).hazard i = s.hazard i := by
  unfold resolveSlot unbind
  split
  · split
    · exact Function.update_of_ne hi ..
    · rfl
  · rfl

theorem resolveHazards_of_ge {i : Nat} (hi : n ≤ i) :
    (s.resolveHazards n p).storage i = s.storage i ∧
      (s.resolveHazards n p).hazard i = s.hazard i := by
  unfold resolveHazards
  induction n with
  | zero => exact ⟨rfl, rfl⟩
  | succ n ih =>
    have hne : i ≠ n := by omega
    obtain ⟨hs, hh⟩ := ih (by omega)
    rw [List.range_succ, List.foldl_append]
    exact ⟨(storage_resolveSlot_of_ne hne).trans hs, (hazard_resolveSlot_of_ne hne).trans hh⟩

/-- An element stays unless the bit is set and `p` meets it. -/
theorem storage_resolveHazards {i : Nat} (hi : i < n) :
    (s.resolveHazards n p).storage i =
      if s.hazard i && (s.storage i).any p then none else s.storage i := by
  unfold resolveHazards
  induction n with
  | zero => omega
  | succ n ih =>
    rw [List.range_succ, List.foldl_append]
    by_cases hin : i = n
    · cases hin
      obtain ⟨hs, hh⟩ := resolveHazards_of_ge (s := s) (p := p) (Nat.le_refl i)
      exact (storage_resolveSlot_self _ p i).trans (by rw [← hs, ← hh]; rfl)
    · exact (storage_resolveSlot_of_ne hin).trans (ih (by omega))

/-- What is left was there. -/
theorem of_storage_resolveHazards {i : Nat} {e : Element}
    (h : (s.resolveHazards n p).storage i = some e) : s.storage i = some e := by
  by_cases hi : i < n
  · rw [storage_resolveHazards hi] at h
    split at h
    · cases h
    · exact h
  · rwa [(resolveHazards_of_ge (Nat.le_of_not_lt hi)).1] at h

/-- With exact bits the loop leaves no element that `p` meets and that can conflict. -/
theorem HazardExact.not_met (h : HazardExact conflicts s) {i : Nat} (hi : i < n) {e : Element}
    (he : (s.resolveHazards n p).storage i = some e) (hc : conflicts e = true) : p e = false := by
  have hold := of_storage_resolveHazards he
  rw [storage_resolveHazards hi, h i, hold] at he
  by_contra hp
  simp [hc, hp] at he

/-! ## The dirty bits -/

/-- From `s` to `t`, a slot that is not dirty has not been changed. -/
def Tracks (s t : BindingSet Element) : Prop :=
  ∀ slot, t.dirty slot = false → s.dirty slot = false ∧ t.storage slot = s.storage slot

theorem Tracks.refl (s : BindingSet Element) : s.Tracks s := fun _ h => ⟨h, rfl⟩

/-- Two changes that mark what they change. -/
theorem Tracks.trans {t u : BindingSet Element} (h : s.Tracks t) (h' : t.Tracks u) :
    s.Tracks u := by
  intro slot hu
  obtain ⟨ht, hut⟩ := h' slot hu
  obtain ⟨hs, hts⟩ := h slot ht
  exact ⟨hs, hut.trans hts⟩

/-- An operation on one slot that makes it dirty. -/
theorem tracks_of_update {t : BindingSet Element} (slot : Nat)
    (hdirty : t.dirty = Function.update s.dirty slot true)
    (hother : ∀ i, i ≠ slot → t.storage i = s.storage i) : s.Tracks t := by
  intro i hi
  rw [hdirty] at hi
  by_cases his : i = slot
  · rw [his, Function.update_self] at hi
    cases hi
  · rw [Function.update_of_ne his] at hi
    exact ⟨hi, hother i his⟩

/-- A binding marks its slot. -/
theorem tracks_bind [RedundantBindingTrait Element] (s : BindingSet Element) (slot : Nat)
    (element : Element) (hazard : Bool) : s.Tracks (s.bind slot element hazard).1 := by
  unfold BindingSet.bind
  split
  · split
    · exact Tracks.refl s
    · exact tracks_of_update slot rfl fun _ hi => Function.update_of_ne hi ..
  · exact tracks_of_update slot rfl fun _ hi => Function.update_of_ne hi ..

theorem tracks_unbind (s : BindingSet Element) (slot : Nat) : s.Tracks (s.unbind slot).1 := by
  unfold BindingSet.unbind
  split
  · exact tracks_of_update slot rfl fun _ hi => Function.update_of_ne hi ..
  · exact Tracks.refl s

theorem tracks_setDirty (s : BindingSet Element) : s.Tracks s.setDirty := fun _ h => nomatch h

theorem tracks_assign_setDirtySlot (s : BindingSet Element) (slot : Nat) (element : Element) :
    s.Tracks ((s.setDirtySlot slot).assign slot element) :=
  tracks_of_update slot rfl fun _ hi => Function.update_of_ne hi ..

theorem tracks_assign_same {element : Element} (h : s.storage slot = some element) :
    s.Tracks (s.assign slot element) := by
  intro i hi
  refine ⟨hi, ?_⟩
  rw [storage_assign, ← h]
  exact congrFun (Function.update_eq_self slot s.storage) i

/-- What is unbound is marked. -/
theorem tracks_resolveHazards (s : BindingSet Element) (n : Nat) (p : Element → Bool) :
    s.Tracks (s.resolveHazards n p) := by
  unfold BindingSet.resolveHazards
  induction n with
  | zero => exact Tracks.refl s
  | succ n ih =>
    rw [List.range_succ, List.foldl_append]
    refine ih.trans ?_
    simp only [List.foldl_cons, List.foldl_nil, resolveSlot]
    split
    · exact tracks_unbind _ n
    · exact Tracks.refl _

/-- Every slot is dirty. -/
def AllDirty (s : BindingSet Element) : Prop := ∀ slot, s.dirty slot = true

theorem allDirty_setDirty (s : BindingSet Element) : s.setDirty.AllDirty := fun _ => rfl

/-- All slots stay dirty through a change that marks what it changes. -/
theorem AllDirty.tracks {t : BindingSet Element} (h : s.AllDirty) (ht : s.Tracks t) :
    t.AllDirty := by
  intro slot
  by_contra hd
  have hs := (ht slot (Bool.eq_false_iff.mpr hd)).1
  rw [h slot] at hs
  cases hs

/-- Where no slot of the mask is dirty, none in it is. -/
theorem dirty_of_anyDirtyMasked {mask : List Nat} (h : s.anyDirtyMasked mask = false) {i : Nat}
    (hi : i ∈ mask) : s.dirty i = false := by
  by_contra hd
  have hany : s.anyDirtyMasked mask = true :=
    List.any_eq_true.mpr ⟨i, hi, Bool.not_eq_false _ |>.mp hd⟩
  rw [hany] at h
  cases h

/-- What is not dirty in the mask was not dirty, and is what it was. -/
theorem Tracks.masked {t : BindingSet Element} (h : s.Tracks t) {mask : List Nat}
    (ht : t.anyDirtyMasked mask = false) :
    s.anyDirtyMasked mask = false ∧ ∀ i ∈ mask, t.storage i = s.storage i := by
  constructor
  · unfold anyDirtyMasked
    rw [List.any_eq_false]
    intro i hi
    rw [(h i (dirty_of_anyDirtyMasked ht hi)).1]
    exact Bool.false_ne_true
  · intro i hi
    exact (h i (dirty_of_anyDirtyMasked ht hi)).2

theorem AllDirty.masked (h : s.AllDirty) {mask : List Nat} (hs : s.anyDirtyMasked mask = false) :
    mask = [] := by
  cases mask with
  | nil => rfl
  | cons i mask =>
    have hi := dirty_of_anyDirtyMasked hs List.mem_cons_self
    rw [h i] at hi
    cases hi

/-! ## A family of sets -/

/-- One set of a family is replaced. -/
theorem tracks_update {ι : Type*} [DecidableEq ι] {sets : ι → BindingSet Element} {i : ι}
    {set : BindingSet Element} (h : (sets i).Tracks set) (j : ι) :
    (sets j).Tracks (Function.update sets i set j) := by
  by_cases hj : j = i
  · rw [hj, Function.update_self]
    exact h
  · rw [Function.update_of_ne hj]
    exact .refl _

theorem storage_update {ι : Type*} [DecidableEq ι] {sets : ι → BindingSet Element} {i : ι}
    {set : BindingSet Element} (h : set.storage = (sets i).storage) (j : ι) :
    (Function.update sets i set j).storage = (sets j).storage := by
  by_cases hj : j = i
  · rw [hj, Function.update_self]
    exact h
  · rw [Function.update_of_ne hj]

end BindingSet

end Dxmt
