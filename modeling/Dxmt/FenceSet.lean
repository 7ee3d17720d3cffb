import Mathlib.Data.Fintype.Pi
import Mathlib.Logic.Relation
import Mathlib.Tactic.SplitIfs

/-!
# Fence sets: `FenceSet`

An encoder id names a fence slot, `id % 256`: the pool has `kParity` generations of `kLane` lanes.
A `FenceSet` is one bit per slot, stored as `kParity` words of `kLane` bits. `EncoderId` is a
`uint64_t` counter that never wraps: a `Nat`.

`x ∈ s` is `test`: it looks only at the slot of `x` (`mem_congr`). Every operation has one
membership lemma, and nothing below this file looks at the words again.

Source: `dxmt_deptrack.hpp:23-199`.
-/

namespace Dxmt

/-- `LaneStorage`. -/
abbrev LaneStorage := BitVec 64

/-- `kLog2Lane`. -/
def kLog2Lane : Nat := 6
/-- Fences in one lane. -/
def kLane : Nat := 1 <<< kLog2Lane
/-- `kLaneMask`. -/
def kLaneMask : Nat := kLane - 1
/-- Every fence of a lane. -/
def kAllLaneMask : LaneStorage := ~~~0#64 >>> (64 - kLane)
/-- Lanes. -/
def kParity : Nat := 4
/-- Fences that a set tells apart. -/
def kParityLane : Nat := kParity * kLane

/-- `PARITY`: the generation of an id. -/
def PARITY (id : Nat) : Fin kParity := ⟨(id >>> kLog2Lane) % kParity, Nat.mod_lt _ (by decide)⟩

/-- `LANE`: the lane of an id. -/
def LANE (id : Nat) : Nat := id &&& kLaneMask

theorem parity_val (id : Nat) : (PARITY id).val = id / 64 % 4 := by
  simp [PARITY, kLog2Lane, kParity, Nat.shiftRight_eq_div_pow]

theorem lane_eq (id : Nat) : LANE id = id % 64 := by
  have : kLaneMask = 2 ^ 6 - 1 := rfl
  rw [LANE, this, Nat.and_two_pow_sub_one_eq_mod]

theorem lane_lt (id : Nat) : LANE id < 64 := by
  rw [lane_eq]
  omega

/-- Two ids share generation and lane iff they name the same slot. -/
theorem parity_lane_eq_iff {x y : Nat} :
    (PARITY x = PARITY y ∧ LANE x = LANE y) ↔ x % 256 = y % 256 := by
  have hp : ∀ n : Nat, n / 64 % 4 = n % 256 / 64 := fun n => by omega
  have hl : ∀ n : Nat, n % 64 = n % 256 % 64 := fun n => by omega
  rw [Fin.ext_iff, parity_val, parity_val, lane_eq, lane_eq, hp x, hp y, hl x, hl y]
  constructor
  · rintro ⟨hq, hr⟩
    rw [← Nat.div_add_mod (x % 256) 64, hq, hr, Nat.div_add_mod]
  · intro h
    rw [h]
    exact ⟨rfl, rfl⟩

/-- `FenceSet`: one word of lanes per generation. -/
structure FenceSet where
  storage : Fin kParity → LaneStorage
deriving DecidableEq

namespace FenceSet

/-- `FenceSet()`. -/
def empty : FenceSet := ⟨fun _ => 0⟩

instance : EmptyCollection FenceSet := ⟨empty⟩

/-- The word with the lane bit of `id`: `1ull << LANE(id)`. -/
def laneBit (id : Nat) : LaneStorage := 1#64 <<< LANE id

/-- `set`. -/
def set (s : FenceSet) (id : Nat) : FenceSet :=
  ⟨Function.update s.storage (PARITY id) (s.storage (PARITY id) ||| laneBit id)⟩

/-- `FenceSet(id)`. -/
def single (id : Nat) : FenceSet := empty.set id

/-- `unset`. -/
def unset (s : FenceSet) (id : Nat) : FenceSet :=
  ⟨Function.update s.storage (PARITY id)
    (s.storage (PARITY id) &&& (kAllLaneMask &&& ~~~laneBit id))⟩

/-- `fillGenerationBefore`: the 64 slots of the generation that ends one lane count before
`(parity, lane)`. -/
def fillGenerationBefore (s : FenceSet) (parity lane : Nat) : FenceSet :=
  let idx := (parity + kParity + (kParity - 1)) * kLane + lane
  (List.range kLane).foldl (fun s offset => s.set (idx - offset)) s

/-- `test`. -/
def test (s : FenceSet) (id : Nat) : Bool :=
  s.storage (PARITY id) &&& laneBit id != 0

/-- `testAndSet`: the old bit, and the set with the bit on. -/
def testAndSet (s : FenceSet) (id : Nat) : Bool × FenceSet :=
  if s.storage (PARITY id) &&& laneBit id != 0 then (true, s) else (false, s.set id)

/-- `intersectedWith`. -/
def intersectedWith (s t : FenceSet) : Bool :=
  decide (∃ i, s.storage i &&& t.storage i ≠ 0)

/-- `contains`. -/
def contains (s t : FenceSet) : Bool :=
  decide (∀ i, s.storage i &&& t.storage i = t.storage i)

/-- `merge`. -/
def merge (s t : FenceSet) : FenceSet := ⟨fun i => s.storage i ||| t.storage i⟩

/-- `unionOf`. -/
def unionOf (s t : FenceSet) : FenceSet := ⟨fun i => s.storage i ||| t.storage i⟩

/-- `subtract`. -/
def subtract (s t : FenceSet) : FenceSet :=
  ⟨fun i => s.storage i &&& (kAllLaneMask &&& ~~~t.storage i)⟩

/-- `mergeWithLaneMaskOff`. -/
def mergeWithLaneMaskOff (s t : FenceSet) (mask : LaneStorage) : FenceSet :=
  ⟨fun i => s.storage i ||| (t.storage i &&& (kAllLaneMask &&& ~~~mask))⟩

/-- `laneMask`: the lanes used in some generation. -/
def laneMask (s : FenceSet) : LaneStorage :=
  (List.finRange kParity).foldl (fun ret i => ret ||| s.storage i) 0

/-! ## Membership -/

instance : Membership Nat FenceSet := ⟨fun s id => s.test id = true⟩

instance (s : FenceSet) (id : Nat) : Decidable (id ∈ s) :=
  inferInstanceAs (Decidable (s.test id = true))

theorem getLsbD_laneBit (id : Nat) (l : Nat) :
    (laneBit id).getLsbD l = decide (LANE id = l) := by
  have := lane_lt id
  simp only [laneBit, ← BitVec.twoPow_eq, BitVec.getLsbD_twoPow]
  by_cases h : LANE id = l
  · simp [h, h ▸ this]
  · simp [h]

theorem getLsbD_kAllLaneMask {l : Nat} (h : l < 64) : kAllLaneMask.getLsbD l = true := by
  have : kAllLaneMask = BitVec.allOnes 64 := by decide
  rw [this, BitVec.getLsbD_allOnes]
  exact decide_eq_true h

/-- `test` reads the lane bit of the generation's word. -/
theorem mem_iff (s : FenceSet) (id : Nat) :
    id ∈ s ↔ (s.storage (PARITY id)).getLsbD (LANE id) = true := by
  show (s.storage (PARITY id) &&& laneBit id != 0) = true ↔ _
  rw [bne_iff_ne, ne_eq]
  constructor
  · intro h
    by_contra hb
    apply h
    apply BitVec.eq_of_getLsbD_eq
    intro l _
    rw [BitVec.getLsbD_and, getLsbD_laneBit]
    by_cases hl : LANE id = l
    · subst hl
      simpa using hb
    · simp [hl]
  · intro h h0
    have := congrArg (fun w : BitVec 64 => w.getLsbD (LANE id)) h0
    simp [getLsbD_laneBit, h] at this

/-- Membership depends on the slot only. -/
theorem mem_congr (s : FenceSet) {x y : Nat} (h : x % 256 = y % 256) : x ∈ s ↔ y ∈ s := by
  obtain ⟨hp, hl⟩ := parity_lane_eq_iff.mpr h
  rw [mem_iff, mem_iff, hp, hl]

@[simp] theorem not_mem_empty (x : Nat) : ¬ x ∈ (∅ : FenceSet) := by
  rw [mem_iff]
  show ¬ (0 : BitVec 64).getLsbD _ = true
  simp

@[simp] theorem test_eq (s : FenceSet) (x : Nat) : s.test x = decide (x ∈ s) := by
  by_cases h : x ∈ s
  · rw [decide_eq_true h]; exact h
  · rw [decide_eq_false h]; exact Bool.eq_false_iff.mpr h

@[simp] theorem mem_set (s : FenceSet) (x y : Nat) :
    y ∈ s.set x ↔ y % 256 = x % 256 ∨ y ∈ s := by
  rw [mem_iff, mem_iff, ← parity_lane_eq_iff]
  unfold set
  dsimp only
  by_cases hp : PARITY y = PARITY x
  · rw [hp, Function.update_self, BitVec.getLsbD_or, getLsbD_laneBit, Bool.or_eq_true,
      decide_eq_true_eq, or_comm]
    exact or_congr ⟨fun h => ⟨rfl, h.symm⟩, fun h => h.2.symm⟩ Iff.rfl
  · rw [Function.update_of_ne hp]
    exact ⟨Or.inr, fun h => h.resolve_left fun h => hp h.1⟩

@[simp] theorem mem_single (x y : Nat) : y ∈ single x ↔ y % 256 = x % 256 := by
  rw [single, mem_set]
  exact or_iff_left (not_mem_empty y)

@[simp] theorem mem_unset (s : FenceSet) (x y : Nat) :
    y ∈ s.unset x ↔ y % 256 ≠ x % 256 ∧ y ∈ s := by
  rw [mem_iff, mem_iff, ne_eq, ← parity_lane_eq_iff]
  unfold unset
  dsimp only
  by_cases hp : PARITY y = PARITY x
  · rw [hp, Function.update_self]
    simp only [BitVec.getLsbD_and, BitVec.getLsbD_not, getLsbD_laneBit, Bool.and_eq_true,
      getLsbD_kAllLaneMask (lane_lt y), lane_lt y, true_and, decide_true, Bool.true_and,
      Bool.not_eq_true', decide_eq_false_iff_not]
    exact ⟨fun h => ⟨fun e => h.2 e.symm, h.1⟩, fun h => ⟨h.2, fun e => h.1 e.symm⟩⟩
  · rw [Function.update_of_ne hp]
    exact ⟨fun h => ⟨fun e => hp e.1, h⟩, fun h => h.2⟩

@[simp] theorem mem_merge (s t : FenceSet) (x : Nat) : x ∈ s.merge t ↔ x ∈ s ∨ x ∈ t := by
  simp only [mem_iff, merge, BitVec.getLsbD_or, Bool.or_eq_true]

@[simp] theorem mem_unionOf (s t : FenceSet) (x : Nat) : x ∈ s.unionOf t ↔ x ∈ s ∨ x ∈ t :=
  mem_merge s t x

@[simp] theorem mem_subtract (s t : FenceSet) (x : Nat) :
    x ∈ s.subtract t ↔ x ∈ s ∧ ¬ x ∈ t := by
  simp only [mem_iff, subtract, BitVec.getLsbD_and, BitVec.getLsbD_not, Bool.and_eq_true,
    getLsbD_kAllLaneMask (lane_lt x), lane_lt x, decide_true, true_and, Bool.not_eq_true']
  rw [Bool.not_eq_true]

/-- The id of generation `i` and lane `l`: every bit of the storage is some id's bit. -/
theorem exists_id (i : Fin kParity) {l : Nat} (h : l < 64) :
    ∃ x : Nat, PARITY x = i ∧ LANE x = l := by
  refine ⟨i.val * 64 + l, Fin.ext ?_, ?_⟩
  · have := i.isLt
    unfold kParity at this
    rw [parity_val]
    omega
  · rw [lane_eq]
    omega

theorem intersectedWith_iff (s t : FenceSet) :
    s.intersectedWith t = true ↔ ∃ x : Nat, x ∈ s ∧ x ∈ t := by
  unfold intersectedWith
  rw [decide_eq_true_eq]
  constructor
  · rintro ⟨i, hi⟩
    by_contra hn
    apply hi
    apply BitVec.eq_of_getLsbD_eq
    intro l hl
    obtain ⟨x, rfl, rfl⟩ := exists_id i hl
    rw [BitVec.getLsbD_and]
    by_contra hb
    have hb' : (s.storage (PARITY x)).getLsbD (LANE x) = true ∧
        (t.storage (PARITY x)).getLsbD (LANE x) = true := by simpa using hb
    exact hn ⟨x, (mem_iff s x).mpr hb'.1, (mem_iff t x).mpr hb'.2⟩
  · rintro ⟨x, hs, ht⟩
    rw [mem_iff] at hs ht
    refine ⟨PARITY x, fun h0 => ?_⟩
    have := congrArg (fun w : BitVec 64 => w.getLsbD (LANE x)) h0
    simp [hs, ht] at this

theorem contains_iff (s t : FenceSet) :
    s.contains t = true ↔ ∀ x : Nat, x ∈ t → x ∈ s := by
  unfold contains
  rw [decide_eq_true_eq]
  constructor
  · intro h x hx
    rw [mem_iff] at hx ⊢
    have := congrArg (fun w : BitVec 64 => w.getLsbD (LANE x)) (h (PARITY x))
    simpa [hx] using this
  · intro h i
    apply BitVec.eq_of_getLsbD_eq
    intro l hl
    obtain ⟨x, rfl, rfl⟩ := exists_id i hl
    have := h x
    rw [mem_iff, mem_iff] at this
    rw [BitVec.getLsbD_and]
    cases ht : (t.storage (PARITY x)).getLsbD (LANE x)
    · simp
    · simp [this ht]

/-- `testAndSet` answers membership and leaves `set`. -/
theorem testAndSet_eq (s : FenceSet) (x : Nat) :
    s.testAndSet x = if x ∈ s then (true, s) else (false, s.set x) := by
  unfold testAndSet
  exact if_congr Iff.rfl rfl rfl

theorem getLsbD_laneMask (s : FenceSet) (l : Nat) :
    s.laneMask.getLsbD l = true ↔ ∃ i, (s.storage i).getLsbD l = true := by
  have key : ∀ (is : List (Fin kParity)) (w : LaneStorage),
      (is.foldl (fun ret i => ret ||| s.storage i) w).getLsbD l = true ↔
        w.getLsbD l = true ∨ ∃ i ∈ is, (s.storage i).getLsbD l = true := by
    intro is
    induction is with
    | nil => intro w; simp
    | cons i is ih =>
      intro w
      rw [List.foldl_cons, ih, BitVec.getLsbD_or, Bool.or_eq_true, or_assoc]
      simp
  rw [laneMask, key]
  simp

/-- The lanes of `laneMask` are the lanes of the members. -/
theorem mem_laneMask (s : FenceSet) (x : Nat) :
    s.laneMask.getLsbD (LANE x) = true ↔ ∃ y : Nat, y % 64 = x % 64 ∧ y ∈ s := by
  rw [getLsbD_laneMask]
  constructor
  · rintro ⟨i, hi⟩
    obtain ⟨y, rfl, hl⟩ := exists_id i (lane_lt x)
    refine ⟨y, by rw [← lane_eq, ← lane_eq, hl], ?_⟩
    rw [mem_iff, hl]
    exact hi
  · rintro ⟨y, hl, hy⟩
    rw [mem_iff] at hy
    rw [← lane_eq, ← lane_eq] at hl
    exact ⟨PARITY y, hl ▸ hy⟩

@[simp] theorem mem_mergeWithLaneMaskOff (s t : FenceSet) (mask : LaneStorage) (x : Nat) :
    x ∈ s.mergeWithLaneMaskOff t mask ↔ x ∈ s ∨ (x ∈ t ∧ mask.getLsbD (LANE x) = false) := by
  simp only [mem_iff, mergeWithLaneMaskOff, BitVec.getLsbD_or, BitVec.getLsbD_and,
    BitVec.getLsbD_not, Bool.or_eq_true, Bool.and_eq_true, getLsbD_kAllLaneMask (lane_lt x),
    lane_lt x, decide_true, true_and, Bool.not_eq_true']

/-- The 64 slots `fillGenerationBefore` adds. -/
theorem mem_fillGenerationBefore (s : FenceSet) (parity lane : Nat) (x : Nat) :
    x ∈ s.fillGenerationBefore parity lane ↔
      (∃ offset < 64, x % 256 = ((parity + 7) * 64 + lane - offset) % 256) ∨ x ∈ s := by
  have key : ∀ (os : List Nat) (idx : Nat) (s : FenceSet),
      x ∈ os.foldl (fun s offset => s.set (idx - offset)) s ↔
        (∃ offset ∈ os, x % 256 = (idx - offset) % 256) ∨ x ∈ s := by
    intro os idx
    induction os with
    | nil => intro s; simp
    | cons o os ih =>
      intro s
      rw [List.foldl_cons, ih, mem_set, ← or_assoc]
      simp [or_comm]
  rw [fillGenerationBefore]
  simp only [key, List.mem_range]
  rfl

end FenceSet

/-- Encoder `y` with wait set `wait` waits on encoder `x`: the set holds the slot of `x`, and `x`
is the last owner of that slot before `y`. -/
def WaitsOn (wait : FenceSet) (x y : Nat) : Prop :=
  x ∈ wait ∧ x < y ∧ y < x + kParityLane

instance (wait : FenceSet) (x y : Nat) : Decidable (WaitsOn wait x y) :=
  inferInstanceAs (Decidable (_ ∧ _ ∧ _))

@[simp] theorem kParityLane_eq : kParityLane = 256 := rfl

@[simp] theorem kLane_eq : kLane = 64 := rfl

end Dxmt
