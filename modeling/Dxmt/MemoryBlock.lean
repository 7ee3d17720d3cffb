import Dxmt.ByteWords
import Mathlib.Data.List.Basic

/-!
# Blocks of memory

A block has as many bytes as were asked for, and none of them is initialised. An access outside of
it, at an address that is not aligned, or to a byte that was never written is `none`.

`Stored` says what has been written somewhere. It is what a `read` needs (`read_eq`), a `write`
establishes it (`stored_put`), and what does not touch the bytes keeps it (`Stored.congr`).
-/

namespace Dxmt

/-- What an allocator returned, and what has been written to it. -/
structure MemoryBlock where
  address : Nat
  size : Nat
  bytes : Nat → Option Byte

namespace MemoryBlock

variable (block : MemoryBlock)

/-- A new block; no byte is written. -/
def alloc (address size : Nat) : MemoryBlock where
  address := address
  size := size
  bytes := fun _ => none

/-- The bytes are inside the block, and the first has an aligned address. -/
def Accessible (alignment offset count : Nat) : Prop :=
  offset + count ≤ block.size ∧ alignment ∣ block.address + offset

instance (alignment offset count : Nat) : Decidable (block.Accessible alignment offset count) :=
  inferInstanceAs (Decidable (_ ∧ _))

/-- Bytes of the block; nothing outside, unaligned or never written. -/
def read (alignment offset count : Nat) : Option (List Byte) :=
  if block.Accessible alignment offset count then (List.range' offset count).mapM block.bytes
  else none

/-- The block with a value in it. -/
def put (offset : Nat) (value : List Byte) : MemoryBlock :=
  { block with
    bytes := fun i =>
      if offset ≤ i ∧ i < offset + value.length then value[i - offset]? else block.bytes i }

/-- Changes bytes of the block. -/
def write (alignment offset : Nat) (value : List Byte) : Option MemoryBlock :=
  if block.Accessible alignment offset value.length then some (block.put offset value) else none

/-- The block with the first bytes of another one. -/
def copy (source : MemoryBlock) (count : Nat) : MemoryBlock :=
  { block with bytes := fun i => if i < count then source.bytes i else block.bytes i }

/-- Copies the first bytes of another block. -/
def memcpy (source : MemoryBlock) (count : Nat) : Option MemoryBlock :=
  if count ≤ block.size ∧ count ≤ source.size then some (block.copy source count) else none

/-- The bytes at the offset are those of the value. -/
def Stored (bytes : Nat → Option Byte) (offset : Nat) (value : List Byte) : Prop :=
  ∀ i < value.length, bytes (offset + i) = value[i]?

variable {block} {bytes bytes' : Nat → Option Byte} {alignment offset count : Nat}
    {value : List Byte}

theorem Stored.congr (h : Stored bytes offset value)
    (heq : ∀ i, offset ≤ i → i < offset + value.length → bytes' i = bytes i) :
    Stored bytes' offset value := by
  intro i hi
  rw [heq (offset + i) (Nat.le_add_right _ _) (Nat.add_lt_add_left hi offset)]
  exact h i hi

theorem mapM_stored (h : Stored bytes offset value) :
    (List.range' offset value.length).mapM bytes = some value := by
  induction value generalizing offset with
  | nil => rfl
  | cons byte value ih =>
    have hfirst := h 0 (Nat.zero_lt_succ _)
    have hrest : Stored bytes (offset + 1) value := by
      intro i hi
      have hbyte := h (i + 1) (Nat.succ_lt_succ hi)
      rw [List.getElem?_cons_succ] at hbyte
      rw [← hbyte, Nat.add_assoc, Nat.add_comm 1]
    rw [Nat.add_zero, List.getElem?_cons_zero] at hfirst
    rw [List.length_cons, List.range'_succ, List.mapM_cons, hfirst, ih hrest]
    rfl

/-- **What is stored is read.** -/
theorem read_eq (haccess : block.Accessible alignment offset count)
    (h : Stored block.bytes offset value)
    (hcount : value.length = count) : block.read alignment offset count = some value := by
  subst hcount
  rw [read, if_pos haccess]
  exact mapM_stored h

theorem write_eq (h : block.Accessible alignment offset value.length) :
    block.write alignment offset value = some (block.put offset value) :=
  if_pos h

theorem stored_put : Stored (block.put offset value).bytes offset value := by
  intro i hi
  have hin : offset ≤ offset + i ∧ offset + i < offset + value.length := by omega
  show (if offset ≤ offset + i ∧ offset + i < offset + value.length then value[offset + i - offset]?
    else block.bytes (offset + i)) = value[i]?
  rw [if_pos hin, Nat.add_sub_cancel_left]

/-- A write changes nothing before its offset or behind the value. -/
theorem put_bytes {i : Nat} (h : i < offset ∨ offset + value.length ≤ i) :
    (block.put offset value).bytes i = block.bytes i := by
  refine if_neg ?_
  omega

theorem memcpy_eq {source : MemoryBlock} (h : count ≤ block.size) (h' : count ≤ source.size) :
    block.memcpy source count = some (block.copy source count) :=
  if_pos ⟨h, h'⟩

theorem copy_bytes {source : MemoryBlock} {i : Nat} (h : i < count) :
    (block.copy source count).bytes i = source.bytes i :=
  if_pos h

end MemoryBlock

end Dxmt
