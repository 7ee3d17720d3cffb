import Mathlib.Data.List.Count
import Mathlib.Data.BitVec

/-!
# Objects with two counts: `ComObject`

`m_refCount` counts the references that the application sees, `m_refPrivate` those of dxmt itself
and one more for as long as `m_refCount` is not zero. Both are atomic, so a step is one change of a
count, and a call that changes both is in between for a while. A call is made through a reference
that is not given back before the call returns, or by the destructor, and references are fewer than
`2 ^ 31` at any time.

Result: `destroyed_once`.

Source: `com_object.hpp:40-105`.
-/

namespace Dxmt

/-- `ComObject` and `ComObjectWithInitialRef`. -/
structure ComObject where
  refCount : BitVec 32
  refPrivate : BitVec 32

/-- What a call has still to do. -/
inductive ComCall where
  /-- `AddRef` has found zero. -/
  | addRefPrivate
  /-- `Release` has made zero. -/
  | releasePrivate
  /-- `ReleasePrivate` has made zero. -/
  | destroy
deriving DecidableEq

/-- An object, the references that are held, the calls that have not returned, and how often the
object was destroyed. -/
structure ComSystem where
  object : ComObject
  publicRefs : Nat := 0
  privateRefs : Nat := 0
  calls : List ComCall := []
  destroyed : Nat := 0
  /-- Only its creator knows the object. -/
  fresh : Bool := false

namespace ComSystem

/-- Some reference to make a call through. -/
def Known (s : ComSystem) : Prop :=
  0 < s.publicRefs ∨ 0 < s.privateRefs ∨ s.fresh = true ∧ s.calls = [] ∨ 0 < s.destroyed

instance (s : ComSystem) : Decidable s.Known := by
  unfold Known
  infer_instance

/-- There are not too many references for the counts. -/
def Room (s : ComSystem) : Prop := s.publicRefs + s.privateRefs + s.calls.length + 1 < 2 ^ 31

instance (s : ComSystem) : Decidable s.Room := by
  unfold Room
  infer_instance

/-- `AddRef`: the first public reference also takes a private one. -/
def addRef (s : ComSystem) : ComSystem :=
  let s' := { s with object.refCount := s.object.refCount + 1 }
  if s.object.refCount = 0 then { s' with calls := .addRefPrivate :: s.calls }
  else { s' with publicRefs := s.publicRefs + 1 }

/-- `Release`: the last public reference also gives a private one back. -/
def release (s : ComSystem) : ComSystem :=
  let s' := { s with
    object.refCount := s.object.refCount - 1
    publicRefs := s.publicRefs - 1 }
  if s.object.refCount - 1 = 0 then { s' with calls := .releasePrivate :: s.calls } else s'

/-- `AddRefPrivate`. -/
def addRefPrivate (s : ComSystem) : ComSystem :=
  { s with object.refPrivate := s.object.refPrivate + 1, fresh := false }

/-- `ReleasePrivate`: the last private reference destroys. -/
def releasePrivate (s : ComSystem) : ComSystem :=
  let s' := { s with object.refPrivate := s.object.refPrivate - 1 }
  if s.object.refPrivate - 1 = 0 then { s' with calls := .destroy :: s.calls } else s'

/-- The next change that a call makes. -/
def finish (s : ComSystem) : ComCall → ComSystem
  | .addRefPrivate => { s.addRefPrivate with publicRefs := s.publicRefs + 1 }
  | .releasePrivate => s.releasePrivate
  | .destroy =>
    { s with
      object.refPrivate := s.object.refPrivate + 0x80000000
      destroyed := s.destroyed + 1 }

/-- The calls and the second halves of calls. -/
inductive Event where
  | addRef
  | release
  | addRefPrivate
  | releasePrivate
  | finish (call : ComCall)

/-- One event, where it is possible. -/
def step (s : ComSystem) : Event → Option ComSystem
  | .addRef => if s.Known ∧ s.Room then some s.addRef else none
  | .release => if 0 < s.publicRefs then some s.release else none
  | .addRefPrivate =>
    if s.Known ∧ s.Room then some { s.addRefPrivate with privateRefs := s.privateRefs + 1 }
    else none
  | .releasePrivate =>
    -- the call that raises `m_refCount` from zero was made through a private reference
    if 0 < s.privateRefs ∧ (.addRefPrivate ∈ s.calls → 1 < s.privateRefs ∨ 0 < s.destroyed) then
      some { s.releasePrivate with privateRefs := s.privateRefs - 1 }
    else none
  | .finish call =>
    if call ∈ s.calls then some ({ s with calls := s.calls.erase call }.finish call) else none

/-- A run of events. -/
def run (s : ComSystem) (events : List Event) : Option ComSystem := events.foldlM step s

/-- `ComObject` starts without references, `ComObjectWithInitialRef` with one. -/
def create (initialRef : Bool) : ComSystem :=
  if initialRef then { object := ⟨1, 1⟩, publicRefs := 1 } else { object := ⟨0, 0⟩, fresh := true }

/-- The states of all runs. -/
inductive Reachable : ComSystem → Prop where
  | create (initialRef : Bool) : Reachable (create initialRef)
  | step {s s' : ComSystem} {e : Event} (h : Reachable s) (hs : s.step e = some s') : Reachable s'

/-! ## The counts as numbers -/

/-- What the counts and the references come to. -/
structure Counts where
  refCount : Nat
  refPrivate : Nat
  publicRefs : Nat
  privateRefs : Nat
  adding : Nat
  releasing : Nat
  destroying : Nat
  destroyed : Nat
  fresh : Nat

namespace Counts

/-- The private count has one for the public references, and the destructor has added `2 ^ 31`. -/
structure Inv (n : Counts) : Prop where
  room : n.publicRefs + n.privateRefs + (n.adding + n.releasing + n.destroying) < 2 ^ 31
  count : n.refCount = n.publicRefs + n.adding
  countPrivate : n.refPrivate + n.adding =
    2 ^ 31 * n.destroyed + n.privateRefs + n.releasing + min n.refCount 1
  one : n.adding ≤ 1
  license : 0 < n.adding → 0 < n.privateRefs + n.fresh + n.destroyed
  unused : 0 < n.destroying → n.publicRefs + n.privateRefs + n.adding + n.releasing = 0 ∧
    n.destroying = 1 ∧ n.destroyed = 0 ∧ n.fresh = 0
  once : n.destroyed ≤ 1
  fresh : 0 < n.fresh → n.publicRefs + n.privateRefs + n.releasing + n.destroying = 0 ∧
    n.destroyed = 0 ∧ n.fresh = 1
  alive : n.fresh + n.destroyed + n.destroying = 0 → 0 < n.refPrivate

/-- Somebody may still reach the object, or it is gone. -/
def Known (n : Counts) : Prop :=
  0 < n.publicRefs ∨ 0 < n.privateRefs ∨ 0 < n.fresh ∧ n.adding = 0 ∨ 0 < n.destroyed

variable {n : Counts}

/-- The first public reference starts taking a private one. -/
theorem Inv.addRef_zero (h : n.Inv) (hknown : n.Known) (hzero : n.refCount = 0)
    (hroom : n.publicRefs + n.privateRefs + (n.adding + n.releasing + n.destroying) + 1 < 2 ^ 31) :
    Inv { n with refCount := 1, adding := n.adding + 1 } := by
  obtain ⟨room, count, countPrivate, one, license, unused, once, fresh, alive⟩ := h
  unfold Known at hknown
  constructor <;> dsimp only <;> omega

theorem Inv.addRef_succ (h : n.Inv) (hknown : n.Known) (hzero : n.refCount ≠ 0)
    (hroom : n.publicRefs + n.privateRefs + (n.adding + n.releasing + n.destroying) + 1 < 2 ^ 31) :
    Inv { n with refCount := n.refCount + 1, publicRefs := n.publicRefs + 1 } := by
  obtain ⟨room, count, countPrivate, one, license, unused, once, fresh, alive⟩ := h
  unfold Known at hknown
  constructor <;> dsimp only <;> omega

/-- The last public reference starts giving the private one back. -/
theorem Inv.release_zero (h : n.Inv) (href : 0 < n.publicRefs) (hzero : n.refCount - 1 = 0) :
    Inv { n with
      refCount := 0
      publicRefs := n.publicRefs - 1
      releasing := n.releasing + 1 } := by
  obtain ⟨room, count, countPrivate, one, license, unused, once, fresh, alive⟩ := h
  constructor <;> dsimp only <;> omega

theorem Inv.release_succ (h : n.Inv) (href : 0 < n.publicRefs) (hzero : n.refCount - 1 ≠ 0) :
    Inv { n with refCount := n.refCount - 1, publicRefs := n.publicRefs - 1 } := by
  obtain ⟨room, count, countPrivate, one, license, unused, once, fresh, alive⟩ := h
  constructor <;> dsimp only <;> omega

theorem Inv.addRefPrivate (h : n.Inv) (hknown : n.Known)
    (hroom : n.publicRefs + n.privateRefs + (n.adding + n.releasing + n.destroying) + 1 < 2 ^ 31) :
    Inv { n with
      refPrivate := n.refPrivate + 1
      privateRefs := n.privateRefs + 1
      fresh := 0 } := by
  obtain ⟨room, count, countPrivate, one, license, unused, once, fresh, alive⟩ := h
  unfold Known at hknown
  constructor <;> dsimp only <;> omega

/-- A private reference is given back, by its holder or by the last public one. -/
theorem Inv.releasePrivate_succ (h : n.Inv) (href : 0 < n.privateRefs)
    (hlicense : 0 < n.adding → 1 < n.privateRefs ∨ 0 < n.destroyed) (hzero : n.refPrivate - 1 ≠ 0) :
    Inv { n with refPrivate := n.refPrivate - 1, privateRefs := n.privateRefs - 1 } := by
  obtain ⟨room, count, countPrivate, one, license, unused, once, fresh, alive⟩ := h
  constructor <;> dsimp only <;> omega

/-- The last private reference starts the destruction. -/
theorem Inv.releasePrivate_zero (h : n.Inv) (href : 0 < n.privateRefs)
    (hlicense : 0 < n.adding → 1 < n.privateRefs ∨ 0 < n.destroyed) (hzero : n.refPrivate - 1 = 0) :
    Inv { n with
      refPrivate := 0
      privateRefs := n.privateRefs - 1
      destroying := n.destroying + 1 } := by
  obtain ⟨room, count, countPrivate, one, license, unused, once, fresh, alive⟩ := h
  constructor <;> dsimp only <;> omega

/-- The private reference is taken. -/
theorem Inv.finishAddRef (h : n.Inv) (hcall : 0 < n.adding) :
    Inv { n with
      refPrivate := n.refPrivate + 1
      publicRefs := n.publicRefs + 1
      adding := n.adding - 1
      fresh := 0 } := by
  obtain ⟨room, count, countPrivate, one, license, unused, once, fresh, alive⟩ := h
  constructor <;> dsimp only <;> omega

theorem Inv.finishRelease_succ (h : n.Inv) (hcall : 0 < n.releasing)
    (hzero : n.refPrivate - 1 ≠ 0) :
    Inv { n with refPrivate := n.refPrivate - 1, releasing := n.releasing - 1 } := by
  obtain ⟨room, count, countPrivate, one, license, unused, once, fresh, alive⟩ := h
  constructor <;> dsimp only <;> omega

/-- The private reference is given back, and it was the last. -/
theorem Inv.finishRelease_zero (h : n.Inv) (hcall : 0 < n.releasing)
    (hzero : n.refPrivate - 1 = 0) :
    Inv { n with
      refPrivate := 0
      releasing := n.releasing - 1
      destroying := n.destroying + 1 } := by
  obtain ⟨room, count, countPrivate, one, license, unused, once, fresh, alive⟩ := h
  constructor <;> dsimp only <;> omega

/-- The object is gone once. -/
theorem Inv.finishDestroy (h : n.Inv) (hcall : 0 < n.destroying) {m : Nat} (hm : m = 2 ^ 31) :
    Inv { n with
      refPrivate := m
      destroying := n.destroying - 1
      destroyed := n.destroyed + 1 } := by
  obtain ⟨room, count, countPrivate, one, license, unused, once, fresh, alive⟩ := h
  constructor <;> dsimp only <;> omega

theorem Inv.refPrivate_zero (h : n.Inv) (hcall : 0 < n.destroying) : n.refPrivate = 0 := by
  obtain ⟨room, count, countPrivate, one, license, unused, once, fresh, alive⟩ := h
  omega

/-- Whoever holds a reference keeps the count above zero. -/
theorem Inv.refPrivate_pos (h : n.Inv) (href : 0 < n.privateRefs + n.releasing) :
    0 < n.refPrivate := by
  obtain ⟨room, count, countPrivate, one, license, unused, once, fresh, alive⟩ := h
  omega

/-- The counts do not overflow. -/
theorem Inv.lt (h : n.Inv) : n.refCount < 2 ^ 31 ∧ n.refPrivate < 2 ^ 32 := by
  obtain ⟨room, count, countPrivate, one, license, unused, once, fresh, alive⟩ := h
  omega

end Counts

/-! ## The steps -/

/-- The state in numbers without width. -/
def counts (s : ComSystem) : Counts where
  refCount := s.object.refCount.toNat
  refPrivate := s.object.refPrivate.toNat
  publicRefs := s.publicRefs
  privateRefs := s.privateRefs
  adding := s.calls.count .addRefPrivate
  releasing := s.calls.count .releasePrivate
  destroying := s.calls.count .destroy
  destroyed := s.destroyed
  fresh := s.fresh.toNat

variable {s s' : ComSystem}

theorem length_calls (calls : List ComCall) : calls.length =
    calls.count .addRefPrivate + calls.count .releasePrivate + calls.count .destroy := by
  induction calls with
  | nil => rfl
  | cons call calls ih =>
    cases call <;> simp only [List.count_cons, List.length_cons, ih, reduceCtorEq, beq_iff_eq,
      if_true, if_false] <;> omega

theorem Known.counts (h : s.Known) : s.counts.Known := by
  obtain h | h | ⟨h, hcalls⟩ | h := h
  · exact .inl h
  · exact .inr (.inl h)
  · refine .inr (.inr (.inl ⟨?_, ?_⟩))
    · exact Nat.one_pos.trans_eq (congrArg Bool.toNat h).symm
    · exact congrArg (List.count ComCall.addRefPrivate) hcalls
  · exact .inr (.inr (.inr h))

theorem Room.counts (h : s.Room) : s.counts.publicRefs + s.counts.privateRefs +
    (s.counts.adding + s.counts.releasing + s.counts.destroying) + 1 < 2 ^ 31 := by
  unfold Room at h
  rwa [length_calls] at h

/-- A count below its width grows by one. -/
theorem toNat_add_one {x : BitVec 32} (h : x.toNat + 1 < 2 ^ 32) : (x + 1).toNat = x.toNat + 1 := by
  bv_omega

theorem toNat_sub_one {x : BitVec 32} (h : 0 < x.toNat) : (x - 1).toNat = x.toNat - 1 := by
  bv_omega

theorem eq_zero_iff {x : BitVec 32} : x = 0 ↔ x.toNat = 0 := by
  bv_omega

theorem toNat_add_high {x : BitVec 32} (h : x = 0) : (x + 0x80000000).toNat = 2 ^ 31 := by
  rw [h]
  decide

/-- `AddRef` keeps the invariant. -/
theorem inv_addRef (h : s.counts.Inv) (hknown : s.Known) (hroom : s.Room) :
    s.addRef.counts.Inv := by
  by_cases hzero : s.object.refCount = 0
  · have heq : s.addRef.counts =
        { s.counts with refCount := 1, adding := s.counts.adding + 1 } := by
      unfold addRef
      rw [if_pos hzero, hzero]
      simp [counts]
    rw [heq]
    exact h.addRef_zero hknown.counts (eq_zero_iff.mp hzero) hroom.counts
  · have hlt := h.lt
    have heq : s.addRef.counts = { s.counts with
        refCount := s.counts.refCount + 1, publicRefs := s.counts.publicRefs + 1 } := by
      unfold addRef
      rw [if_neg hzero]
      simp only [counts] at hlt ⊢
      rw [toNat_add_one (by omega)]
    rw [heq]
    exact h.addRef_succ hknown.counts (fun h => hzero (eq_zero_iff.mpr h)) hroom.counts

/-- `Release` keeps the invariant. -/
theorem inv_release (h : s.counts.Inv) (href : 0 < s.publicRefs) : s.release.counts.Inv := by
  have hcount := h.count
  have hpred : (s.object.refCount - 1).toNat = s.counts.refCount - 1 := by
    refine toNat_sub_one ?_
    simp only [counts] at hcount
    omega
  by_cases hzero : s.object.refCount - 1 = 0
  · have heq : s.release.counts = { s.counts with
        refCount := 0
        publicRefs := s.counts.publicRefs - 1
        releasing := s.counts.releasing + 1 } := by
      unfold release
      rw [if_pos hzero, hzero]
      simp [counts]
    rw [heq]
    exact h.release_zero href (hpred ▸ eq_zero_iff.mp hzero)
  · have heq : s.release.counts = { s.counts with
        refCount := s.counts.refCount - 1, publicRefs := s.counts.publicRefs - 1 } := by
      unfold release
      rw [if_neg hzero, ← hpred]
      rfl
    rw [heq]
    exact h.release_succ href fun hc => hzero (eq_zero_iff.mpr (hpred.trans hc))

/-- `AddRefPrivate` keeps the invariant. -/
theorem inv_addRefPrivate (h : s.counts.Inv) (hknown : s.Known) (hroom : s.Room) :
    { s.addRefPrivate with privateRefs := s.privateRefs + 1 }.counts.Inv := by
  have hinv := h.addRefPrivate hknown.counts hroom.counts
  have heq : { s.addRefPrivate with privateRefs := s.privateRefs + 1 }.counts = { s.counts with
      refPrivate := s.counts.refPrivate + 1
      privateRefs := s.counts.privateRefs + 1
      fresh := 0 } := by
    unfold addRefPrivate
    simp only [counts]
    rw [toNat_add_one hinv.lt.2]
    rfl
  rw [heq]
  exact hinv

/-- `ReleasePrivate` keeps the invariant. -/
theorem inv_releasePrivate (h : s.counts.Inv) (href : 0 < s.privateRefs)
    (hlicense : .addRefPrivate ∈ s.calls → 1 < s.privateRefs ∨ 0 < s.destroyed) :
    { s.releasePrivate with privateRefs := s.privateRefs - 1 }.counts.Inv := by
  have hadding : 0 < s.counts.adding → 1 < s.counts.privateRefs ∨ 0 < s.counts.destroyed :=
    fun hadding => hlicense (List.count_pos_iff.mp hadding)
  have hpred := toNat_sub_one (h.refPrivate_pos (Nat.add_pos_left href _))
  by_cases hzero : s.object.refPrivate - 1 = 0
  · have heq : { s.releasePrivate with privateRefs := s.privateRefs - 1 }.counts = { s.counts with
        refPrivate := 0
        privateRefs := s.counts.privateRefs - 1
        destroying := s.counts.destroying + 1 } := by
      unfold releasePrivate
      rw [if_pos hzero, hzero]
      simp [counts]
    rw [heq]
    exact h.releasePrivate_zero href hadding (hpred ▸ eq_zero_iff.mp hzero)
  · have heq : { s.releasePrivate with privateRefs := s.privateRefs - 1 }.counts = { s.counts with
        refPrivate := s.counts.refPrivate - 1
        privateRefs := s.counts.privateRefs - 1 } := by
      unfold releasePrivate
      rw [if_neg hzero]
      simp only [counts]
      rw [hpred]
    rw [heq]
    exact h.releasePrivate_succ href hadding fun hc => hzero (eq_zero_iff.mpr (hpred.trans hc))

theorem counts_destroy (s : ComSystem) (refPrivate : BitVec 32) :
    { s with
      calls := s.calls.erase .destroy
      object.refPrivate := refPrivate
      destroyed := s.destroyed + 1 }.counts =
    { s.counts with
      refPrivate := refPrivate.toNat
      destroying := s.counts.destroying - 1
      destroyed := s.counts.destroyed + 1 } := by
  simp only [counts, List.count_erase, reduceCtorEq, beq_iff_eq, if_true, if_false]
  rfl

/-- The second half of a call keeps the invariant. -/
theorem inv_finish (h : s.counts.Inv) {call : ComCall} (hcall : call ∈ s.calls) :
    ({ s with calls := s.calls.erase call }.finish call).counts.Inv := by
  have hpos := List.count_pos_iff.mpr hcall
  cases call with
  | addRefPrivate =>
    have hinv := h.finishAddRef hpos
    have heq : ({ s with calls := s.calls.erase .addRefPrivate }.finish .addRefPrivate).counts =
        { s.counts with
          refPrivate := s.counts.refPrivate + 1
          publicRefs := s.counts.publicRefs + 1
          adding := s.counts.adding - 1
          fresh := 0 } := by
      unfold finish addRefPrivate
      simp only [counts, List.count_erase, reduceCtorEq, beq_iff_eq, if_true, if_false]
      rw [toNat_add_one hinv.lt.2]
      rfl
    rw [heq]
    exact hinv
  | releasePrivate =>
    have hpred := toNat_sub_one (h.refPrivate_pos (Nat.add_pos_right _ hpos))
    by_cases hzero : s.object.refPrivate - 1 = 0
    · have heq : ({ s with calls := s.calls.erase .releasePrivate }.finish .releasePrivate).counts =
          { s.counts with
            refPrivate := 0
            releasing := s.counts.releasing - 1
            destroying := s.counts.destroying + 1 } := by
        unfold finish releasePrivate
        rw [if_pos hzero, hzero]
        simp [counts]
      rw [heq]
      exact h.finishRelease_zero hpos (hpred ▸ eq_zero_iff.mp hzero)
    · have heq : ({ s with calls := s.calls.erase .releasePrivate }.finish .releasePrivate).counts =
          { s.counts with
            refPrivate := s.counts.refPrivate - 1
            releasing := s.counts.releasing - 1 } := by
        unfold finish releasePrivate
        rw [if_neg hzero]
        simp only [counts, List.count_erase, reduceCtorEq, beq_iff_eq, if_true, if_false]
        rw [hpred]
        rfl
      rw [heq]
      exact h.finishRelease_succ hpos fun hc => hzero (eq_zero_iff.mpr (hpred.trans hc))
  | destroy =>
    have hzero : s.object.refPrivate = 0 := eq_zero_iff.mpr (h.refPrivate_zero hpos)
    have hadd : (s.object.refPrivate + 0x80000000).toNat = 2 ^ 31 := toNat_add_high hzero
    have heq := counts_destroy s (s.object.refPrivate + 0x80000000)
    refine heq ▸ h.finishDestroy hpos hadd

/-- Every event keeps the invariant. -/
theorem step_inv {e : Event} (hs : s.step e = some s') (h : s.counts.Inv) : s'.counts.Inv := by
  unfold step at hs
  cases e with
  | addRef =>
    dsimp only at hs
    split at hs
    next hguard =>
      obtain rfl := Option.some.inj hs
      exact inv_addRef h hguard.1 hguard.2
    next => cases hs
  | release =>
    dsimp only at hs
    split at hs
    next hguard =>
      obtain rfl := Option.some.inj hs
      exact inv_release h hguard
    next => cases hs
  | addRefPrivate =>
    dsimp only at hs
    split at hs
    next hguard =>
      obtain rfl := Option.some.inj hs
      exact inv_addRefPrivate h hguard.1 hguard.2
    next => cases hs
  | releasePrivate =>
    dsimp only at hs
    split at hs
    next hguard =>
      obtain rfl := Option.some.inj hs
      exact inv_releasePrivate h hguard.1 hguard.2
    next => cases hs
  | finish call =>
    dsimp only at hs
    split at hs
    next hguard =>
      obtain rfl := Option.some.inj hs
      exact inv_finish h hguard
    next => cases hs

/-- The invariant holds in every state of every run. -/
theorem Reachable.inv (h : Reachable s) : s.counts.Inv := by
  induction h with
  | create initialRef => cases initialRef <;> constructor <;> decide
  | step _ hs ih => exact step_inv hs ih

theorem Reachable.run (h : Reachable s) {events : List Event} (hrun : s.run events = some s') :
    Reachable s' := by
  induction events generalizing s with
  | nil =>
    obtain rfl := Option.some.inj hrun
    exact h
  | cons e events ih =>
    obtain ⟨s₁, he, hrun⟩ := Option.bind_eq_some_iff.mp hrun
    exact ih (h.step he) hrun

/-- **An object is destroyed once**: only when no reference is left and no other call is in
progress, and always then. Until then `m_refCount` is the number of the public references. -/
theorem destroyed_once (h : Reachable s) :
    s.destroyed ≤ 1 ∧
      (.destroy ∈ s.calls →
        s.calls = [.destroy] ∧ s.publicRefs = 0 ∧ s.privateRefs = 0 ∧ s.destroyed = 0) ∧
      (s.publicRefs = 0 → s.privateRefs = 0 → s.calls = [] → s.fresh = false → s.destroyed = 1) ∧
      s.object.refCount.toNat = s.publicRefs + s.calls.count .addRefPrivate := by
  have hinv := h.inv
  have hlength := length_calls s.calls
  refine ⟨hinv.once, fun hcall => ?_, fun hpublic hprivate hcalls hfresh => ?_, hinv.count⟩
  · obtain ⟨hrefs, hone, hdestroyed, -⟩ := hinv.unused (List.count_pos_iff.mpr hcall)
    simp only [counts] at hrefs hone hdestroyed
    refine ⟨?_, by omega, by omega, hdestroyed⟩
    obtain ⟨call, hcalls⟩ := List.length_eq_one_iff.mp (hlength.trans (by omega))
    rw [hcalls] at hcall ⊢
    rw [List.mem_singleton.mp hcall]
  · have hcount := hinv.count
    have hcountPrivate := hinv.countPrivate
    have halive := hinv.alive
    have honce := hinv.once
    simp only [counts, hpublic, hprivate, hcalls, hfresh, List.count_nil, Bool.toNat_false]
      at hcount hcountPrivate halive honce
    omega

/-- The application gives its reference back and gets another one, both while dxmt holds the object.
The destructor takes a private reference for a while. -/
def destroyedRun : List Event :=
  [.addRefPrivate, .release, .addRef, .finish .releasePrivate, .finish .addRefPrivate,
    .releasePrivate, .release, .finish .releasePrivate, .finish .destroy, .addRefPrivate,
      .releasePrivate]

theorem destroyed_once_destroyedRun : ∃ s : ComSystem, (create true).run destroyedRun = some s ∧
    s.destroyed = 1 ∧ s.object.refPrivate = 0x80000000 ∧
    s.destroyed ≤ 1 ∧
      (.destroy ∈ s.calls →
        s.calls = [.destroy] ∧ s.publicRefs = 0 ∧ s.privateRefs = 0 ∧ s.destroyed = 0) ∧
      (s.publicRefs = 0 → s.privateRefs = 0 → s.calls = [] → s.fresh = false → s.destroyed = 1) ∧
      s.object.refCount.toNat = s.publicRefs + s.calls.count .addRefPrivate := by
  have hrun : (create true).run destroyedRun = some _ := rfl
  exact ⟨_, hrun, rfl, rfl, destroyed_once ((Reachable.create true).run hrun)⟩

end ComSystem

end Dxmt
