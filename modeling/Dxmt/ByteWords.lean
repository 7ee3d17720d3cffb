import Mathlib.Algebra.Group.Nat.Defs
import Mathlib.Data.List.Basic

/-!
# Little-endian words in a list of bytes

A writer appends words and patches words that it has appended; a reader reads a word at an offset.
Over `encodeWords`, the bytes of a list of words, both are operations on the words:
`readU32_encodeWords`, `patchU32_encodeWords`.

A read outside the list gives zeros. Every parser below reads after a check.
-/

namespace Dxmt

/-- 32 bits. -/
abbrev Word := BitVec 32

/-- 8 bits. -/
abbrev Byte := BitVec 8

/-- The four bytes of a word. -/
def writeU32 (value : Word) : List Byte :=
  [value.setWidth 8, (value >>> 8).setWidth 8, (value >>> 16).setWidth 8,
    (value >>> 24).setWidth 8]

/-- Two bytes, the lower first. -/
def writeU16 (value : BitVec 16) : List Byte :=
  [value.setWidth 8, (value >>> 8).setWidth 8]

/-- The byte at an offset; zero past the end. -/
def byteAt (data : List Byte) (offset : Nat) : Byte :=
  data[offset]?.getD 0

/-- Four bytes as a word, the lowest first. -/
def readU32 (data : List Byte) (offset : Nat) : Word :=
  (byteAt data offset).setWidth 32 |||
    (byteAt data (offset + 1)).setWidth 32 <<< 8 |||
    (byteAt data (offset + 2)).setWidth 32 <<< 16 |||
    (byteAt data (offset + 3)).setWidth 32 <<< 24

/-- Overwrites the word at an offset. -/
def patchU32 (data : List Byte) (offset : Nat) (value : Word) : List Byte :=
  (((data.set offset (value.setWidth 8)).set (offset + 1) ((value >>> 8).setWidth 8)).set
    (offset + 2) ((value >>> 16).setWidth 8)).set (offset + 3) ((value >>> 24).setWidth 8)

/-- `offset + size`, when it is inside the limit. -/
def checkedEnd (offset size limit : Nat) : Option Nat :=
  if offset > limit ∨ size > limit - offset then none else some (offset + size)

/-- The bytes of the words. -/
def encodeWords (words : List Word) : List Byte :=
  words.flatMap writeU32

theorem checkedEnd_eq_some {offset size limit : Nat} (h : offset + size ≤ limit) :
    checkedEnd offset size limit = some (offset + size) :=
  if_neg (by omega)

theorem bytes_of_word (value : Word) :
    (value.setWidth 8).setWidth 32 ||| ((value >>> 8).setWidth 8).setWidth 32 <<< 8 |||
      ((value >>> 16).setWidth 8).setWidth 32 <<< 16 |||
        ((value >>> 24).setWidth 8).setWidth 32 <<< 24 = value := by
  apply BitVec.eq_of_getLsbD_eq
  intro i hi
  simp only [BitVec.getLsbD_or, BitVec.getLsbD_shiftLeft, BitVec.getLsbD_setWidth,
    BitVec.getLsbD_ushiftRight]
  -- one case for each byte
  by_cases h1 : i < 8
  · simp [h1, hi, show i < 16 by omega, show i < 24 by omega]
  by_cases h2 : i < 16
  · simp [h1, h2, hi, show i < 24 by omega, show i - 8 < 8 by omega,
      show 8 + (i - 8) = i by omega, show i - 8 < 32 by omega]
  by_cases h3 : i < 24
  · simp [h1, h2, h3, hi, show i - 16 < 8 by omega, show 16 + (i - 16) = i by omega,
      show i - 16 < 32 by omega, show ¬ i - 8 < 8 by omega]
  · simp [h1, h2, h3, hi, show i - 24 < 8 by omega, show 24 + (i - 24) = i by omega,
      show i - 24 < 32 by omega, show ¬ i - 8 < 8 by omega, show ¬ i - 16 < 8 by omega]

theorem readU32_writeU32 (value : Word) (rest : List Byte) :
    readU32 (writeU32 value ++ rest) 0 = value :=
  bytes_of_word value

theorem length_writeU32 (value : Word) : (writeU32 value).length = 4 :=
  rfl

/-- A read behind a prefix is a read of the rest. -/
theorem readU32_append (front back : List Byte) (offset : Nat) :
    readU32 (front ++ back) (front.length + offset) = readU32 back offset := by
  have hbyte : ∀ i, byteAt (front ++ back) (front.length + i) = byteAt back i := fun i => by
    unfold byteAt
    rw [List.getElem?_append_right (Nat.le_add_right _ _), Nat.add_sub_cancel_left]
  unfold readU32
  rw [Nat.add_assoc, Nat.add_assoc, Nat.add_assoc, hbyte, hbyte, hbyte, hbyte]

section Words

variable {words : List Word}

@[simp]
theorem encodeWords_nil : encodeWords [] = [] :=
  rfl

theorem encodeWords_cons (word : Word) (words : List Word) :
    encodeWords (word :: words) = writeU32 word ++ encodeWords words :=
  List.flatMap_cons

theorem encodeWords_append (xs ys : List Word) :
    encodeWords (xs ++ ys) = encodeWords xs ++ encodeWords ys :=
  List.flatMap_append

@[simp]
theorem length_encodeWords (words : List Word) : (encodeWords words).length = 4 * words.length := by
  induction words with
  | nil => rfl
  | cons word words ih =>
    rw [encodeWords_cons, List.length_append, length_writeU32, ih, List.length_cons]
    omega

theorem readU32_nil (offset : Nat) : readU32 [] offset = 0 := by
  unfold readU32 byteAt
  simp only [List.getElem?_nil, Option.getD_none]
  decide

/-- The word at an offset that counts words. -/
theorem readU32_encodeWords (words : List Word) (k : Nat) :
    readU32 (encodeWords words) (4 * k) = words[k]?.getD 0 := by
  induction k generalizing words with
  | zero =>
    cases words with
    | nil => rfl
    | cons word words =>
      rw [encodeWords_cons]
      exact readU32_writeU32 word _
  | succ k ih =>
    cases words with
    | nil => exact readU32_nil _
    | cons word words =>
      rw [encodeWords_cons, Nat.mul_succ, Nat.add_comm]
      exact (readU32_append (writeU32 word) (encodeWords words) (4 * k)).trans (ih words)

/-- The word that the list has after `front`. -/
theorem readU32_encodeWords_append (front : List Word) (word : Word) (back : List Word) :
    readU32 (encodeWords (front ++ word :: back)) (4 * front.length) = word := by
  rw [readU32_encodeWords, List.getElem?_append_right (Nat.le_refl _), Nat.sub_self]
  rfl

/-- A patch of the word after `front`. -/
theorem patchU32_encodeWords (front : List Word) (word value : Word) (back : List Word) :
    patchU32 (encodeWords (front ++ word :: back)) (4 * front.length) value =
      encodeWords (front ++ value :: back) := by
  have hset : ∀ (xs ys : List Byte) (i : Nat) (b : Byte),
      (xs ++ ys).set (xs.length + i) b = xs ++ ys.set i b := fun xs ys i b => by
    rw [List.set_append_right _ _ (Nat.le_add_right _ _), Nat.add_sub_cancel_left]
  unfold patchU32
  rw [encodeWords_append, encodeWords_append, ← length_encodeWords, encodeWords_cons,
    encodeWords_cons]
  have hzero := hset (encodeWords front) (writeU32 word ++ encodeWords back) 0
  rw [Nat.add_zero] at hzero
  rw [hzero, hset, hset, hset]
  rfl

end Words

end Dxmt
