import Mathlib.Data.Nat.Bitwise
import Mathlib.Tactic.Linarith

/-!
# Streams of bits

Bytes hold bits from the lowest one up. A number of fixed width is written from its lowest bit up; a
number of variable width is written in pieces that each have a bit for "more follows".

* `At data offset bits`: the bits are in the data from the offset on. A sequence of writes is there
  exactly where each is behind the one before (`at_append`), and `pack` puts them there (`at_pack`).
* `readWord_fixed`: a number of fixed width is read back.
-/

namespace Bitstream

/-- The number with the bits of a sequence, as a loop over them has it. -/
def gather (bit : Nat → Bool) (width : Nat) : Nat :=
  (List.range width).foldl (fun value i => value ||| (bit i).toNat <<< i) 0

theorem gather_succ (bit : Nat → Bool) (width : Nat) :
    gather bit (width + 1) = gather bit width ||| (bit width).toNat <<< width := by
  rw [gather, List.range_succ, List.foldl_append]
  rfl

/-- A gathered number has the bits that it was gathered from. -/
theorem testBit_gather (bit : Nat → Bool) (width i : Nat) :
    (gather bit width).testBit i = (decide (i < width) && bit i) := by
  induction width with
  | zero => simp [gather]
  | succ width ih =>
    rw [gather_succ, Nat.testBit_or, ih, Nat.testBit_shiftLeft]
    rcases lt_trichotomy i width with hlt | rfl | hgt
    · have hnot : ¬ width ≤ i := by omega
      simp [hlt, hnot, Nat.lt_succ_of_lt hlt]
    · cases bit i <;> simp
    · have hpos : i - width ≠ 0 := by omega
      have hnot : ¬ i < width := by omega
      have hnot' : ¬ i < width + 1 := by omega
      have hzero : (bit width).toNat.testBit (i - width) = false := by
        obtain ⟨k, hk⟩ := Nat.exists_eq_succ_of_ne_zero hpos
        rw [hk]
        cases bit width <;> simp [Nat.testBit_succ]
      simp [hnot, hnot', hzero]

/-! ## Bytes -/

/-- A bit of the bytes, the lowest bit of a byte first. -/
def bitAt (data : List (BitVec 8)) (i : Nat) : Bool :=
  (data[i / 8]?.getD 0).getLsbD (i % 8)

/-- The number in `width` bits from an offset on. -/
def readWord (data : List (BitVec 8)) (offset width : Nat) : Nat :=
  gather (fun i => bitAt data (offset + i)) width

/-- Bytes for a sequence of bits, the last one filled up with zeros. -/
def pack (bits : List Bool) : List (BitVec 8) :=
  (List.range ((bits.length + 7) / 8)).map fun k =>
    BitVec.ofNat 8 (gather (fun i => bits[8 * k + i]?.getD false) 8)

theorem length_pack (bits : List Bool) : (pack bits).length = (bits.length + 7) / 8 := by
  simp [pack]

/-- A packed bit is found. -/
theorem bitAt_pack {bits : List Bool} {i : Nat} (h : i < bits.length) :
    bitAt (pack bits) i = bits[i] := by
  have hbyte : i / 8 < (bits.length + 7) / 8 := by omega
  have hbit : i % 8 < 8 := Nat.mod_lt _ (by decide)
  have hindex : 8 * (i / 8) + i % 8 = i := Nat.div_add_mod i 8
  simp only [bitAt, pack, List.getElem?_map, List.getElem?_range hbyte, Option.map_some,
    Option.getD_some, BitVec.getLsbD_ofNat, testBit_gather, hbit, decide_true, Bool.true_and,
      hindex, List.getElem?_eq_getElem h]

/-- The bits are in the data from the offset on. -/
structure At (data : List (BitVec 8)) (offset : Nat) (bits : List Bool) : Prop where
  inside : offset + bits.length ≤ 8 * data.length
  bit : ∀ i (h : i < bits.length), bitAt data (offset + i) = bits[i]

variable {data : List (BitVec 8)} {offset : Nat} {bits first second : List Bool}

/-- Two runs of bits stand one behind the other. -/
theorem at_append : At data offset (first ++ second) ↔ At data offset first ∧ At data
    (offset + first.length) second := by
  constructor
  · rintro ⟨hinside, hbit⟩
    rw [List.length_append] at hinside
    refine ⟨⟨by omega, fun i h => ?_⟩, ⟨by omega, fun i h => ?_⟩⟩
    · rw [hbit i (by simp; omega), List.getElem_append_left h]
    · rw [Nat.add_assoc, hbit (first.length + i) (by simp; omega),
        List.getElem_append_right (by omega)]
      simp
  · rintro ⟨⟨hinside, hbit⟩, ⟨hinside', hbit'⟩⟩
    refine ⟨by simp; omega, fun i h => ?_⟩
    by_cases hlt : i < first.length
    · rw [List.getElem_append_left hlt, hbit i hlt]
    · have hsecond : i - first.length < second.length := by
        rw [List.length_append] at h
        omega
      have hsum : offset + i = offset + first.length + (i - first.length) := by omega
      rw [List.getElem_append_right (not_lt.mp hlt), hsum, hbit' _ hsecond]

/-- Packed bits stand at the start. -/
theorem at_pack (bits : List Bool) : At (pack bits) 0 bits := by
  refine ⟨?_, fun i h => ?_⟩
  · rw [length_pack]
    omega
  · rw [Nat.zero_add]
    exact bitAt_pack h

/-! ## Numbers -/

/-- A number in so many bits. -/
def fixed (width value : Nat) : List Bool :=
  (List.range width).map value.testBit

@[simp] theorem length_fixed (width value : Nat) : (fixed width value).length = width := by
  simp [fixed]

/-- A fixed field is read. -/
theorem readWord_fixed {width value : Nat} (hvalue : value < 2 ^ width)
    (h : At data offset (fixed width value)) :
    readWord data offset width = value := by
  refine Nat.eq_of_testBit_eq fun i => ?_
  rw [readWord, testBit_gather]
  by_cases hi : i < width
  · have hbit := h.bit i (by simpa using hi)
    rw [hbit]
    simp [fixed, hi]
  · have hpow : 2 ^ width ≤ 2 ^ i := Nat.pow_le_pow_right (by decide) (not_lt.mp hi)
    rw [decide_eq_false hi, Nat.testBit_lt_two_pow (hvalue.trans_le hpow)]
    rfl

/-- The bits of a number below a place, and those above it. -/
theorem low_or_high (value shift k : Nat) :
    (value % 2 ^ k) <<< shift ||| (value / 2 ^ k) <<< (shift + k) = value <<< shift := by
  refine Nat.eq_of_testBit_eq fun i => ?_
  simp only [Nat.testBit_or, Nat.testBit_shiftLeft, Nat.testBit_mod_two_pow,
    Nat.testBit_div_two_pow]
  by_cases hshift : shift ≤ i
  · by_cases hk : i - shift < k
    · have hnot : ¬ shift + k ≤ i := by omega
      simp [hshift, hk, hnot]
    · have hge : shift + k ≤ i := by omega
      have hindex : i - (shift + k) + k = i - shift := by omega
      simp [hshift, hk, hge, hindex]
  · have hnot : ¬ shift + k ≤ i := by omega
    simp [hshift, hnot]

/-- A number in pieces of `width` bits, all but the last with the bit for "more follows". -/
def vbr (width value : Nat) : List Bool :=
  if value < 2 ^ (width - 1) ∨ width < 2 then fixed width value
  else fixed width (value % 2 ^ (width - 1) + 2 ^ (width - 1)) ++
  vbr width (value / 2 ^ (width - 1))
termination_by value
decreasing_by
  rename_i h
  have hwidth : 1 ≤ width - 1 := by omega
  have htwo : 2 ^ 1 ≤ 2 ^ (width - 1) := Nat.pow_le_pow_right (by decide) hwidth
  exact Nat.div_lt_self (by omega) (by omega)

/-- A small value is one piece. -/
theorem vbr_last {width value : Nat} (h : value < 2 ^ (width - 1)) :
    vbr width value = fixed width value := by
  rw [vbr, if_pos (.inl h)]

/-- A large value is a piece and the rest. -/
theorem vbr_more {width value : Nat} (hwidth : 2 ≤ width) (h : 2 ^ (width - 1) ≤ value) :
    vbr width value =
      fixed width (value % 2 ^ (width - 1) + 2 ^ (width - 1)) ++
        vbr width (value / 2 ^ (width - 1)) := by
  rw [vbr, if_neg (by omega)]

/-- The zeros up to the next word. -/
def padding (offset : Nat) : List Bool :=
  List.replicate ((32 - offset % 32) % 32) false

/-- Padding ends at a word. -/
theorem offset_padding (offset : Nat) : (offset + (padding offset).length) % 32 = 0 := by
  rw [padding, List.length_replicate]
  omega

/-! ## Writers -/

/-- Bits that may depend on where they start. -/
def Writer : Type := Nat → List Bool

namespace Writer

/-- Writes bits. -/
def put (bits : List Bool) : Writer := fun _ => bits

/-- Up to the next word. -/
def align : Writer := padding

/-- Where the writer stops. -/
def stop (w : Writer) (offset : Nat) : Nat := offset + (w offset).length

/-- One writer after the other. -/
def andThen (w w' : Writer) : Writer := fun offset => w offset ++ w' (w.stop offset)

/-- A number of words, and these words behind it. -/
def sized (w : Writer) : Writer := fun offset =>
  fixed 32 ((w.stop (offset + 32) - (offset + 32)) / 32) ++ w (offset + 32)

theorem le_stop (w : Writer) (offset : Nat) : offset ≤ w.stop offset := Nat.le_add_right _ _

@[simp] theorem stop_put (bits : List Bool) (offset : Nat) :
    (put bits).stop offset = offset + bits.length := rfl

/-- The second writer starts where the first stops. -/
@[simp] theorem stop_andThen (w w' : Writer) (offset : Nat) :
    (w.andThen w').stop offset = w'.stop (w.stop offset) := by
  rw [stop, andThen, List.length_append, ← Nat.add_assoc]
  rfl

theorem stop_fixed (width value offset : Nat) :
    (put (fixed width value)).stop offset = offset + width := by
  rw [stop_put, length_fixed]

/-- A size is one word before its writer. -/
theorem stop_sized (w : Writer) (offset : Nat) : (sized w).stop offset = w.stop (offset + 32) := by
  rw [stop, sized, List.length_append, length_fixed, ← Nat.add_assoc]
  rfl

/-- A writer stands behind another. -/
theorem at_andThen {w w' : Writer} :
    At data offset (w.andThen w' offset) ↔
      At data offset (w offset) ∧ At data (w.stop offset) (w' (w.stop offset)) :=
  at_append

theorem put_append (bits bits' : List Bool) :
    put (bits ++ bits') = (put bits).andThen (put bits') :=
  rfl

theorem put_nil_andThen (w : Writer) : (put []).andThen w = w := rfl

theorem andThen_put_nil (w : Writer) : w.andThen (put []) = w :=
  funext fun _ => List.append_nil _

/-- Writers can be grouped in either way. -/
theorem andThen_assoc (w w' w'' : Writer) :
    (w.andThen w').andThen w'' = w.andThen (w'.andThen w'') := by
  funext offset
  rw [andThen, andThen, andThen, andThen, stop_andThen, List.append_assoc]

end Writer

end Bitstream
