import Dxmt.ByteWords
import Dxmt.OperandMask

/-!
# Buffer accesses of a shader: `CreateBufferLoadInt32` and the stores beside it

A raw or structured view is a pointer to words with its length in the metadata. An access is what
the translated instruction does for given operands: the words it reads and writes through the
pointer, and the values it returns. The index arithmetic is that of the emitted 32-bit code, and the
address that D3D gives a component is an exact number. A GEP takes its index as a signed number.

The values are words; threadgroup memory, typed views and wider elements are left out. What an
atomic operation stores is a parameter.

Result: `meets_iff`. The loads and stores of DXBC meet the contract unless an index wraps around to
a word of the view; its atomics and everything from DXIL are not guarded, and meet it only inside
the view.

Source: `nt/dxbc_converter_base.cpp:2257-2496, 2910-2965`, `dxil_air_converter.cpp:988-1008,
1411-1460, 1625-1640`.
-/

namespace Dxmt

namespace Airconv

/-- The words around the pointer of a view; those of the view start at 0. -/
abbrev BufferMemory := Int → Word

/-- `DecodeRawBufferByteLength`. -/
def decodeRawBufferByteLength (metadata : BitVec 64) : Word := metadata.truncate 32

/-- The number of words of the view. -/
def viewLength (metadata : BitVec 64) : Nat := (decodeRawBufferByteLength metadata).toNat / 4

/-- The word lies in the view. -/
def Inside (metadata : BitVec 64) (word : Int) : Prop := 0 ≤ word ∧ word < viewLength metadata

/-- The byte stride of a structured view: some words. -/
structure Stride where
  value : Word
  words : 4 ∣ value.toNat
  pos : 0 < value.toNat

/-- The buffers without a format. -/
inductive BufferKind where
  | raw
  | structured (stride : Stride)

/-- What the emitted code does. -/
structure Outcome where
  reads : List Int := []
  writes : List (Int × Word) := []
  /-- The value of a component that is loaded, or the old one of an atomic operation. -/
  value : Fin 4 → Word := fun _ => 0

variable {metadata : BitVec 64} {m : BufferMemory}

/-! ## DXBC -/

/-- The guard of `CreateBufferLoadInt32`. -/
def safeIndex (metadata : BitVec 64) (index : Word) : Word :=
  if index < decodeRawBufferByteLength metadata >>> 2 then index else 0

/-- `CreateBufferLoadInt32` on a view. -/
def createBufferLoadInt32 (metadata : BitVec 64) (m : BufferMemory) (index : Word) : Word :=
  if index < decodeRawBufferByteLength metadata >>> 2 then m (safeIndex metadata index).toInt else 0

/-- `CreateGEPInt32WithBoundCheck`; `none` is the null pointer. -/
def createGEPInt32WithBoundCheck (metadata : BitVec 64) (index : Word) : Option Int :=
  if index < decodeRawBufferByteLength metadata >>> 2 then some index.toInt else none

/-- The number of a component as an index. -/
def component (c : Fin 4) : Word := BitVec.ofNat 32 c.val

/-- The loads of the components, in the scalar case and in the other one. -/
def loadComponents (mask : Mask) (swizzle : Swizzle) : List (Fin 4) :=
  match componentFromScalarMask mask swizzle with
  | some comp => [comp]
  | none => (enumerateComponents (memoryAccessMask mask swizzle)).map Prod.fst

/-- Loads the components of the mask from the word on. -/
def loadAt (metadata : BitVec 64) (m : BufferMemory) (mask : Mask) (swizzle : Swizzle)
    (index : Word) :
    Outcome where
  reads := (loadComponents mask swizzle).map fun c =>
      (safeIndex metadata (index + component c)).toInt
  value c := createBufferLoadInt32 metadata m (index + component c)

/-- The masks that `InstStoreRaw` and `InstStoreStructured` go on with. -/
def storeMask (mask : Mask) : Bool := mask = 0b1 ∨ mask = 0b11 ∨ mask = 0b111 ∨ mask = 0b1111

/-- Stores the components of the mask from the word on, where the mask is one. -/
def storeAt (metadata : BitVec 64) (values : Fin 4 → Word) (mask : Mask) (index : Word) :
    Outcome where
  writes :=
    if storeMask mask then
      (enumerateComponents mask).filterMap fun (dstComp, _) =>
        (createGEPInt32WithBoundCheck metadata (index + component dstComp)).map fun ptr =>
          (ptr, values dstComp)
    else []

/-- The word of a byte offset. -/
def rawIndex (byteOffset : Word) : Word := byteOffset >>> 2

/-- The word of an offset in an element. -/
def structuredIndex (stride : Stride) (address byteOffset : Word) : Word :=
  (stride.value >>> 2) * address + byteOffset >>> 2

/-- `ld_raw`. -/
def instLoadRaw (metadata : BitVec 64) (m : BufferMemory) (mask : Mask) (swizzle : Swizzle)
    (byteOffset : Word) : Outcome :=
  loadAt metadata m mask swizzle (rawIndex byteOffset)

/-- `ld_structured`. -/
def instLoadStructured (metadata : BitVec 64) (m : BufferMemory) (stride : Stride) (mask : Mask)
    (swizzle : Swizzle) (address byteOffset : Word) : Outcome :=
  loadAt metadata m mask swizzle (structuredIndex stride address byteOffset)

/-- `store_raw`. -/
def instStoreRaw (metadata : BitVec 64) (values : Fin 4 → Word) (mask : Mask) (byteOffset : Word) :
    Outcome :=
  storeAt metadata values mask (rawIndex byteOffset)

/-- `store_structured`. -/
def instStoreStructured (metadata : BitVec 64) (values : Fin 4 → Word) (stride : Stride)
    (mask : Mask) (address byteOffset : Word) : Outcome :=
  storeAt metadata values mask (structuredIndex stride address byteOffset)

/-- `LoadAtomicOpAddress`; the stride of a raw view is 0 there. -/
def loadAtomicOpAddress : BufferKind → Word → Word → Word
  | .structured stride, x, y => (stride.value * x + y) >>> 2
  | .raw, x, _ => x >>> 2

/-- `CreateAtomicRMW` and `CreateAtomicCmpXchg` on a word. -/
def atomicAt (m : BufferMemory) (op : Word → Word) (index : Word) : Outcome where
  reads := [index.toInt]
  writes := [(index.toInt, op (m index.toInt))]
  value _ := m index.toInt

/-- `InstAtomicBinOp` and `InstAtomicImmCmpExchange` on a view. -/
def instAtomic (m : BufferMemory) (op : Word → Word) (kind : BufferKind) (x y : Word) : Outcome :=
  atomicAt m op (loadAtomicOpAddress kind x y)

/-! ## DXIL -/

/-- `BufferWordIndex`. -/
def bufferWordIndex (kind : BufferKind) (element byteOffset : Word) : Word :=
  let wordOffset := byteOffset >>> 2
  match kind with
  | .raw => element + wordOffset
  | .structured stride =>
    let strideWords : Word := if stride.value >>> 2 < 1 then 1 else stride.value >>> 2
    element * strideWords + wordOffset

/-- `RawBufferLoad`, and `BufferLoad` with a full mask. -/
def bufferLoad (m : BufferMemory) (kind : BufferKind) (mask : Mask) (element byteOffset : Word) :
    Outcome where
  reads := mask.components.map fun c => (bufferWordIndex kind element byteOffset +
      component c).toInt
  value c := m (bufferWordIndex kind element byteOffset + component c).toInt

/-- `RawBufferStore` and `BufferStore`. -/
def bufferStore (values : Fin 4 → Word) (kind : BufferKind) (mask : Mask)
    (element byteOffset : Word) :
    Outcome where
  writes := mask.components.map fun c =>
    ((bufferWordIndex kind element byteOffset + component c).toInt, values c)

/-- `AtomicBinOp` and `AtomicCompareExchange` on a view. -/
def bufferAtomic (m : BufferMemory) (op : Word → Word) (kind : BufferKind)
    (element byteOffset : Word) :
    Outcome :=
  atomicAt m op (bufferWordIndex kind element byteOffset)

/-! ## What an access owes -/

/-- A translated instruction with its operands. -/
inductive BufferAccess where
  | loadRaw (mask : Mask) (swizzle : Swizzle) (byteOffset : Word)
  | loadStructured (stride : Stride) (mask : Mask) (swizzle : Swizzle) (address byteOffset : Word)
  | storeRaw (mask : Mask) (byteOffset : Word)
  | storeStructured (stride : Stride) (mask : Mask) (address byteOffset : Word)
  | atomic (kind : BufferKind) (x y : Word)
  | bufferLoad (kind : BufferKind) (mask : Mask) (element byteOffset : Word)
  | bufferStore (kind : BufferKind) (mask : Mask) (element byteOffset : Word)
  | bufferAtomic (kind : BufferKind) (element byteOffset : Word)

/-- The byte address that D3D gives an index and an offset; a raw view has the offset only, which
DXIL passes as the index. -/
def byteAddress : BufferKind → Nat → Nat → Nat
  | .raw, index, _ => index
  | .structured stride, index, offset => index * stride.value.toNat + offset

namespace BufferAccess

/-- What the emitted code of an access does. -/
def emit (metadata : BitVec 64) (m : BufferMemory) (values : Fin 4 → Word) (op : Word → Word) :
    BufferAccess → Outcome
  | loadRaw mask swizzle byteOffset => instLoadRaw metadata m mask swizzle byteOffset
  | loadStructured stride mask swizzle address byteOffset =>
    instLoadStructured metadata m stride mask swizzle address byteOffset
  | storeRaw mask byteOffset => instStoreRaw metadata values mask byteOffset
  | storeStructured stride mask address byteOffset =>
    instStoreStructured metadata values stride mask address byteOffset
  | atomic kind x y => instAtomic m op kind x y
  | bufferLoad kind mask element byteOffset => Airconv.bufferLoad m kind mask element byteOffset
  | bufferStore kind mask element byteOffset =>
      Airconv.bufferStore values kind mask element byteOffset
  | bufferAtomic kind element byteOffset => Airconv.bufferAtomic m op kind element byteOffset

/-- The exact address of the first component. -/
def address : BufferAccess → Nat
  | loadRaw _ _ byteOffset | storeRaw _ byteOffset => byteAddress .raw byteOffset.toNat 0
  | loadStructured stride _ _ address byteOffset | storeStructured stride _ address byteOffset =>
    byteAddress (.structured stride) address.toNat byteOffset.toNat
  | atomic kind x y => byteAddress kind x.toNat y.toNat
  | bufferLoad kind _ element byteOffset | bufferStore kind _ element byteOffset
  | bufferAtomic kind element byteOffset => byteAddress kind element.toNat byteOffset.toNat

/-- The word at the exact address of a component. -/
def word (a : BufferAccess) (c : Fin 4) : Nat := (a.address + 4 * c.val) / 4

/-- The components of the buffer that the instruction is for. -/
def components : BufferAccess → List (Fin 4)
  | loadRaw mask swizzle _ | loadStructured _ mask swizzle _ _ => mask.components.map swizzle
  | storeRaw mask _ | storeStructured _ mask _ _ | bufferLoad _ mask _ _ | bufferStore _ mask _ _ =>
    mask.components
  | atomic _ _ _ | bufferAtomic _ _ _ => [firstComponent]

/-- The contract of a load. -/
structure LoadContract (a : BufferAccess) (metadata : BitVec 64) (m : BufferMemory) (o : Outcome) :
    Prop where
  reads : ∀ w ∈ o.reads, w = 0 ∨ Inside metadata w
  writes : o.writes = []
  inside : ∀ c ∈ a.components, Inside metadata (a.word c) →
    ↑(a.word c) ∈ o.reads ∧ o.value c = m (a.word c)
  outside : ∀ c ∈ a.components, ¬ Inside metadata (a.word c) → o.value c = 0

/-- The contract of a store: the components inside, and nothing else. -/
structure StoreContract (a : BufferAccess) (metadata : BitVec 64) (values : Fin 4 → Word)
    (o : Outcome) : Prop where
  reads : o.reads = []
  inside : ∀ c ∈ a.components, Inside metadata (a.word c) → (↑(a.word c), values c) ∈ o.writes
  only : ∀ p ∈ o.writes, ∃ c ∈ a.components,
    Inside metadata (a.word c) ∧ p = (↑(a.word c), values c)

/-- The contract of an atomic operation. -/
structure AtomicContract (a : BufferAccess) (metadata : BitVec 64) (m : BufferMemory)
    (op : Word → Word) (o : Outcome) : Prop where
  reads : ∀ w ∈ o.reads, Inside metadata w
  inside : Inside metadata (a.word 0) →
    o.writes = [(↑(a.word 0), op (m (a.word 0)))] ∧ o.value 0 = m (a.word 0)
  outside : ¬ Inside metadata (a.word 0) → o.writes = []

/-- The emitted code meets the contract of the instruction, whatever the memory holds. -/
def Meets (metadata : BitVec 64) (a : BufferAccess) : Prop :=
  ∀ m values op,
    match a with
    | loadRaw .. | loadStructured .. | bufferLoad .. =>
      LoadContract a metadata m (a.emit metadata m values op)
    | storeRaw .. | storeStructured .. | bufferStore .. =>
      StoreContract a metadata values (a.emit metadata m values op)
    | atomic .. | bufferAtomic .. => AtomicContract a metadata m op (a.emit metadata m values op)

/-- The component does not wrap around to a word of the view. -/
def NoWrap (metadata : BitVec 64) (a : BufferAccess) (c : Fin 4) : Prop :=
  a.word c < 2 ^ 32 ∨ viewLength metadata ≤ a.word c % 2 ^ 32

/-- What a DXIL access must meet besides: a raw view is accessed at its first byte. -/
def WordIndexed : BufferKind → Word → Word → Prop
  | .raw, element, byteOffset => element = 0 ∧ byteOffset >>> 2 = 0
  | .structured _, _, _ => True

/-- When the contract is met. -/
def Condition (metadata : BitVec 64) (a : BufferAccess) : Prop :=
  match a with
  | loadRaw .. => True
  | loadStructured .. => ∀ c ∈ a.components, NoWrap metadata a c
  | storeRaw mask _ => storeMask mask = true ∨ ∀ c ∈ a.components, ¬ Inside metadata (a.word c)
  | storeStructured _ mask _ _ =>
    if storeMask mask = true then ∀ c ∈ a.components, NoWrap metadata a c
    else ∀ c ∈ a.components, ¬ Inside metadata (a.word c)
  | atomic .. => Inside metadata (a.word firstComponent)
  | bufferLoad kind _ element byteOffset | bufferStore kind _ element byteOffset
  | bufferAtomic kind element byteOffset =>
    ∀ c ∈ a.components, Inside metadata (a.word c) ∧ WordIndexed kind element byteOffset

end BufferAccess

/-! ## Indices -/

theorem viewLength_lt (metadata : BitVec 64) : viewLength metadata < 2 ^ 30 := by
  have := (decodeRawBufferByteLength metadata).isLt
  unfold viewLength
  omega

theorem toNat_shiftRight_two (x : Word) : (x >>> 2).toNat = x.toNat / 4 := by
  rw [BitVec.toNat_ushiftRight, Nat.shiftRight_eq_div_pow]

theorem lt_length_iff {index : Word} :
    index < decodeRawBufferByteLength metadata >>> 2 ↔ index.toNat < viewLength metadata := by
  rw [BitVec.lt_def, toNat_shiftRight_two]
  rfl

/-- An index below the length is not negative. -/
theorem toInt_of_lt {index : Word} (h : index.toNat < viewLength metadata) :
    index.toInt = index.toNat := by
  have := viewLength_lt metadata
  exact BitVec.toInt_eq_toNat_of_lt (by omega)

theorem inside_iff {word : Nat} : Inside metadata word ↔ word < viewLength metadata := by
  unfold Inside
  omega

theorem toNat_component (c : Fin 4) : (component c).toNat = c.val := by
  revert c
  decide

theorem toNat_add_component (index : Word) (c : Fin 4) :
    (index + component c).toNat = (index.toNat + c.val) % 2 ^ 32 := by
  rw [BitVec.toNat_add, toNat_component]

theorem BufferAccess.word_eq (a : BufferAccess) (c : Fin 4) : a.word c = a.address / 4 + c.val := by
  unfold word
  omega

/-- The exact word of a structured view. -/
theorem byteAddress_structured (stride : Stride) (index offset : Nat) :
    byteAddress (.structured stride) index offset / 4 =
      stride.value.toNat / 4 * index + offset / 4 := by
  obtain ⟨k, hk⟩ := stride.words
  show (index * stride.value.toNat + offset) / 4 = _
  have hmul : index * (4 * k) = 4 * (k * index) := by rw [Nat.mul_left_comm, Nat.mul_comm index k]
  rw [hk, Nat.mul_div_cancel_left k (by omega), hmul]
  omega

theorem toNat_structuredIndex (stride : Stride) (address byteOffset : Word) :
    (structuredIndex stride address byteOffset).toNat =
      byteAddress (.structured stride) address.toNat byteOffset.toNat / 4 % 2 ^ 32 := by
  unfold structuredIndex
  rw [BitVec.toNat_add, BitVec.toNat_mul, toNat_shiftRight_two, toNat_shiftRight_two,
    byteAddress_structured, Nat.mod_add_mod]

/-- What the emitted code has for a component is the exact word modulo 2^32. -/
theorem toNat_index_component {a : BufferAccess} {index : Word} (c : Fin 4)
    (h : index.toNat = a.address / 4 % 2 ^ 32) :
    (index + component c).toNat = a.word c % 2 ^ 32 := by
  rw [toNat_add_component, h, Nat.mod_add_mod, BufferAccess.word_eq]

theorem toNat_rawIndex (byteOffset : Word) :
    (rawIndex byteOffset).toNat = byteAddress .raw byteOffset.toNat 0 / 4 % 2 ^ 32 := by
  have := byteOffset.isLt
  show _ = byteOffset.toNat / 4 % 2 ^ 32
  unfold rawIndex
  rw [toNat_shiftRight_two, Nat.mod_eq_of_lt (by omega)]

/-! ## Guarded accesses -/

theorem toInt_safeIndex_of_lt {index : Word} (h : index.toNat < viewLength metadata) :
    (safeIndex metadata index).toInt = index.toNat := by
  unfold safeIndex
  rw [if_pos (lt_length_iff.mpr h), toInt_of_lt h]

theorem safeIndex_of_le {index : Word} (h : viewLength metadata ≤ index.toNat) :
    safeIndex metadata index = 0 :=
  if_neg fun hlt => absurd (lt_length_iff.mp hlt) (by omega)

theorem createBufferLoadInt32_of_lt {index : Word} (h : index.toNat < viewLength metadata) :
    createBufferLoadInt32 metadata m index = m index.toNat := by
  unfold createBufferLoadInt32
  rw [if_pos (lt_length_iff.mpr h), toInt_safeIndex_of_lt h]

theorem createBufferLoadInt32_of_le {index : Word} (h : viewLength metadata ≤ index.toNat) :
    createBufferLoadInt32 metadata m index = 0 :=
  if_neg fun hlt => absurd (lt_length_iff.mp hlt) (by omega)

theorem createGEP_of_lt {index : Word} (h : index.toNat < viewLength metadata) :
    createGEPInt32WithBoundCheck metadata index = some ↑index.toNat := by
  unfold createGEPInt32WithBoundCheck
  rw [if_pos (lt_length_iff.mpr h), toInt_of_lt h]

theorem createGEP_of_le {index : Word} (h : viewLength metadata ≤ index.toNat) :
    createGEPInt32WithBoundCheck metadata index = none :=
  if_neg fun hlt => absurd (lt_length_iff.mp hlt) (by omega)

/-- The loads are those of the swizzled components. -/
theorem mem_loadComponents {mask : Mask} {swizzle : Swizzle} {c : Fin 4} :
    c ∈ loadComponents mask swizzle ↔ c ∈ mask.components.map swizzle := by
  rw [List.mem_map]
  unfold loadComponents
  cases hscalar : componentFromScalarMask mask swizzle with
  | some comp =>
    obtain ⟨⟨d, hd⟩, hall⟩ := componentFromScalarMask_spec hscalar
    dsimp only
    rw [List.mem_singleton]
    constructor
    · rintro rfl
      exact ⟨d, Mask.mem_components.mpr hd, hall d hd⟩
    · rintro ⟨e, he, rfl⟩
      exact hall e (Mask.mem_components.mp he)
  | none =>
    dsimp only
    rw [map_enumerateComponents, Mask.mem_components, test_memoryAccessMask]
    simp only [Mask.mem_components]

/-- An index of the view that is not the exact word. -/
theorem BufferAccess.NoWrap.cases {a : BufferAccess} {c : Fin 4} (h : NoWrap metadata a c) :
    a.word c % 2 ^ 32 = a.word c ∧ a.word c < viewLength metadata ∨
      viewLength metadata ≤ a.word c ∧ viewLength metadata ≤ a.word c % 2 ^ 32 := by
  have := viewLength_lt metadata
  rcases h with h | h
  · rw [Nat.mod_eq_of_lt h]
    omega
  · have := Nat.mod_le (a.word c) (2 ^ 32)
    omega

theorem BufferAccess.not_noWrap {a : BufferAccess} {c : Fin 4} (h : ¬ NoWrap metadata a c) :
    2 ^ 32 ≤ a.word c ∧ a.word c % 2 ^ 32 < viewLength metadata := by
  unfold NoWrap at h
  omega

/-- **Guarded loads** meet the contract unless a component wraps around. -/
theorem loadAt_iff {a : BufferAccess} {mask : Mask} {swizzle : Swizzle} {index : Word}
    (hcomponents : a.components = mask.components.map swizzle)
    (hindex : index.toNat = a.address / 4 % 2 ^ 32) :
    (∀ m, a.LoadContract metadata m (loadAt metadata m mask swizzle index)) ↔
      ∀ c ∈ a.components, a.NoWrap metadata c := by
  constructor
  · intro h c hc
    by_contra hwrap
    obtain ⟨hbig, hlt⟩ := BufferAccess.not_noWrap hwrap
    have hlen := viewLength_lt metadata
    -- the load returns a word of the view, and the contract asks for 0
    have hzero := (h fun _ => 1).outside c hc (by rw [inside_iff]; omega)
    have hload : createBufferLoadInt32 metadata (fun _ => 1) (index + component c) = 1 :=
      createBufferLoadInt32_of_lt (by rw [toNat_index_component c hindex]; exact hlt)
    exact absurd (hload.symm.trans hzero) (by decide)
  · intro h m
    refine ⟨fun w hw => ?_, rfl, fun c hc hin => ?_, fun c hc hout => ?_⟩
    · obtain ⟨c, hc, rfl⟩ := List.mem_map.mp hw
      have hnat := toNat_index_component c hindex
      by_cases hlt : (index + component c).toNat < viewLength metadata
      · rw [toInt_safeIndex_of_lt hlt]
        exact Or.inr (inside_iff.mpr hlt)
      · rw [safeIndex_of_le (by omega)]
        exact Or.inl rfl
    · have hnat := toNat_index_component c hindex
      rw [inside_iff] at hin
      have hexact : (index + component c).toNat = a.word c := by
        rcases (h c hc).cases with ⟨he, -⟩ | ⟨hle, -⟩
        · rw [hnat, he]
        · omega
      have hlt : (index + component c).toNat < viewLength metadata := by omega
      refine ⟨List.mem_map.mpr ⟨c, mem_loadComponents.mpr (hcomponents ▸ hc), ?_⟩, ?_⟩
      · rw [toInt_safeIndex_of_lt hlt, hexact]
      · show createBufferLoadInt32 metadata m (index + component c) = _
        rw [createBufferLoadInt32_of_lt hlt, hexact]
    · have hnat := toNat_index_component c hindex
      rw [inside_iff] at hout
      refine createBufferLoadInt32_of_le ?_
      rcases (h c hc).cases with ⟨-, hlt⟩ | ⟨-, hle⟩
      · exact absurd hlt hout
      · omega

theorem mem_storeAt_writes {values : Fin 4 → Word} {mask : Mask} {index : Word} {p : Int × Word}
    (hmask : storeMask mask = true) :
    p ∈ (storeAt metadata values mask index).writes ↔ ∃ c ∈ mask.components, ∃ ptr,
      createGEPInt32WithBoundCheck metadata (index + component c) = some ptr ∧
        p = (ptr, values c) := by
  unfold storeAt
  dsimp only
  rw [if_pos hmask, List.mem_filterMap]
  constructor
  · rintro ⟨⟨c, k⟩, hmem, hp⟩
    obtain ⟨ptr, hptr, rfl⟩ := Option.map_eq_some_iff.mp hp
    have hc : c ∈ (enumerateComponents mask).map Prod.fst := List.mem_map.mpr ⟨(c, k), hmem, rfl⟩
    exact ⟨c, map_enumerateComponents mask ▸ hc, ptr, hptr, rfl⟩
  · rintro ⟨c, hc, ptr, hptr, rfl⟩
    rw [← map_enumerateComponents, List.mem_map] at hc
    obtain ⟨⟨c, k⟩, hmem, rfl⟩ := hc
    exact ⟨(c, k), hmem, Option.map_eq_some_iff.mpr ⟨ptr, hptr, rfl⟩⟩

/-- **Guarded stores** of a mask that is translated. -/
theorem storeAt_iff {a : BufferAccess} {mask : Mask} {index : Word}
    (hcomponents : a.components = mask.components) (hindex : index.toNat = a.address / 4 % 2 ^ 32)
    (hmask : storeMask mask = true) :
    (∀ values, a.StoreContract metadata values (storeAt metadata values mask index)) ↔
      ∀ c ∈ a.components, a.NoWrap metadata c := by
  constructor
  · intro h c hc
    by_contra hwrap
    obtain ⟨hbig, hlt⟩ := BufferAccess.not_noWrap hwrap
    have hlen := viewLength_lt metadata
    have hgep : createGEPInt32WithBoundCheck metadata (index + component c) =
        some ↑(index + component c).toNat :=
      createGEP_of_lt (by rw [toNat_index_component c hindex]; exact hlt)
    obtain ⟨d, -, hin, -⟩ := (h fun _ => 0).only _
      ((mem_storeAt_writes hmask).mpr ⟨c, hcomponents ▸ hc, _, hgep, rfl⟩)
    -- the components of one access are less than four words apart
    rw [inside_iff, BufferAccess.word_eq] at hin
    rw [BufferAccess.word_eq] at hbig
    omega
  · intro h values
    refine ⟨rfl, fun c hc hin => ?_, fun p hp => ?_⟩
    · have hnat := toNat_index_component c hindex
      rw [inside_iff] at hin
      have hexact : (index + component c).toNat = a.word c := by
        rcases (h c hc).cases with ⟨he, -⟩ | ⟨hle, -⟩
        · rw [hnat, he]
        · omega
      have hgep : createGEPInt32WithBoundCheck metadata (index + component c) =
          some ↑(index + component c).toNat := createGEP_of_lt (by omega)
      rw [hexact] at hgep
      exact (mem_storeAt_writes hmask).mpr ⟨c, hcomponents ▸ hc, _, hgep, rfl⟩
    · obtain ⟨c, hc, ptr, hptr, rfl⟩ := (mem_storeAt_writes hmask).mp hp
      have hnat := toNat_index_component c hindex
      have hc' : c ∈ a.components := hcomponents ▸ hc
      rcases (h c hc').cases with ⟨he, hlt⟩ | ⟨-, hle⟩
      · rw [createGEP_of_lt (by omega), hnat, he] at hptr
        cases hptr
        exact ⟨c, hc', inside_iff.mpr hlt, rfl⟩
      · rw [createGEP_of_le (by omega)] at hptr
        cases hptr

/-- A mask that is not translated stores nothing. -/
theorem storeAt_iff_of_not {a : BufferAccess} {mask : Mask} {index : Word}
    (hmask : ¬ storeMask mask = true) :
    (∀ values, a.StoreContract metadata values (storeAt metadata values mask index)) ↔
      ∀ c ∈ a.components, ¬ Inside metadata (a.word c) := by
  have hwrites (values : Fin 4 → Word) : (storeAt metadata values mask index).writes = [] :=
    if_neg hmask
  constructor
  · intro h c hc hin
    have hmem := (h fun _ => 0).inside c hc hin
    rw [hwrites] at hmem
    exact absurd hmem List.not_mem_nil
  · intro h values
    refine ⟨rfl, fun c hc hin => absurd hin (h c hc), fun p hp => ?_⟩
    rw [hwrites] at hp
    exact absurd hp List.not_mem_nil

/-! ## Accesses without a guard -/

theorem toNat_of_toInt {x : Word} {n : Nat} (h : x.toInt = n) : x.toNat = n := by
  rw [BitVec.toInt_eq_toNat_cond] at h
  split at h
  · omega
  · have := x.isLt
    omega

theorem toInt_of_toNat {x : Word} {n : Nat} (h : x.toNat = n) (hin : Inside metadata n) :
    x.toInt = n := by
  rw [inside_iff] at hin
  have hlt : x.toNat < viewLength metadata := by omega
  rw [toInt_of_lt hlt, h]

/-- **Atomic operations** go to the address they compute. -/
theorem atomicAt_iff {a : BufferAccess} {index : Word} :
    (∀ m op, a.AtomicContract metadata m op (atomicAt m op index)) ↔
      Inside metadata (a.word 0) ∧ index.toNat = a.word 0 := by
  constructor
  · intro h
    have hin : Inside metadata (a.word 0) := by
      by_contra hout
      exact absurd ((h (fun _ => 0) id).outside hout) (List.cons_ne_nil _ _)
    refine ⟨hin, toNat_of_toInt ?_⟩
    have hwrites := ((h (fun _ => 0) id).inside hin).1
    exact (Prod.ext_iff.mp (List.cons.inj hwrites).1).1
  · rintro ⟨hin, hindex⟩ m op
    have hint := toInt_of_toNat hindex hin
    refine ⟨fun w hw => ?_, fun _ => ⟨?_, ?_⟩, fun hout => absurd hin hout⟩
    · rw [List.mem_singleton.mp hw, hint]
      exact hin
    · show [(index.toInt, op (m index.toInt))] = _
      rw [hint]
    · show m index.toInt = _
      rw [hint]

/-- **Loads of DXIL** go to the addresses they compute. -/
theorem bufferLoad_iff {a : BufferAccess} {kind : BufferKind} {mask : Mask}
    {element byteOffset : Word} (hcomponents : a.components = mask.components) :
    (∀ m, a.LoadContract metadata m (bufferLoad m kind mask element byteOffset)) ↔
      ∀ c ∈ a.components, Inside metadata (a.word c) ∧
        (bufferWordIndex kind element byteOffset + component c).toNat = a.word c := by
  constructor
  · intro h c hc
    have hin : Inside metadata (a.word c) := by
      by_contra hout
      have hone : (1 : Word) = 0 := (h fun _ => 1).outside c hc hout
      exact absurd hone (by decide)
    refine ⟨hin, toNat_of_toInt ?_⟩
    -- a memory that tells the exact word from all others
    have hvalue := ((h fun w => if w = a.word c then 1 else 0).inside c hc hin).2
    rw [if_pos rfl] at hvalue
    by_contra hne
    exact absurd (hvalue.symm.trans (if_neg hne)) (by decide)
  · intro h m
    refine ⟨fun w hw => ?_, rfl, fun c hc hin => ⟨?_, ?_⟩, fun c hc hout => absurd (h c hc).1 hout⟩
    · obtain ⟨c, hc, rfl⟩ := List.mem_map.mp hw
      obtain ⟨hin, hindex⟩ := h c (hcomponents ▸ hc)
      rw [toInt_of_toNat hindex hin]
      exact Or.inr hin
    · exact List.mem_map.mpr ⟨c, hcomponents ▸ hc, toInt_of_toNat (h c hc).2 hin⟩
    · show m (bufferWordIndex kind element byteOffset + component c).toInt = _
      rw [toInt_of_toNat (h c hc).2 hin]

/-- **Stores of DXIL** go to the addresses they compute. -/
theorem bufferStore_iff {a : BufferAccess} {kind : BufferKind} {mask : Mask}
    {element byteOffset : Word} (hcomponents : a.components = mask.components) :
    (∀ values, a.StoreContract metadata values (bufferStore values kind mask element byteOffset)) ↔
      ∀ c ∈ a.components, Inside metadata (a.word c) ∧
        (bufferWordIndex kind element byteOffset + component c).toNat = a.word c := by
  constructor
  · intro h c hc
    -- values that tell the components apart
    obtain ⟨d, hd, hin, heq⟩ := (h component).only _
      (List.mem_map.mpr ⟨c, hcomponents ▸ hc, rfl⟩)
    obtain ⟨hint, hvalue⟩ := Prod.ext_iff.mp heq
    have hcd : c = d := Fin.ext (by
      rw [← toNat_component c, ← toNat_component d]
      exact congrArg BitVec.toNat hvalue)
    subst hcd
    exact ⟨hin, toNat_of_toInt hint⟩
  · intro h values
    refine ⟨rfl, fun c hc hin => ?_, fun p hp => ?_⟩
    · refine List.mem_map.mpr ⟨c, hcomponents ▸ hc, ?_⟩
      rw [toInt_of_toNat (h c hc).2 hin]
    · obtain ⟨c, hc, rfl⟩ := List.mem_map.mp hp
      have hc' : c ∈ a.components := hcomponents ▸ hc
      refine ⟨c, hc', (h c hc').1, ?_⟩
      rw [toInt_of_toNat (h c hc').2 (h c hc').1]

theorem toNat_bufferWordIndex_structured (stride : Stride) (element byteOffset : Word) :
    (bufferWordIndex (.structured stride) element byteOffset).toNat =
      byteAddress (.structured stride) element.toNat byteOffset.toNat / 4 % 2 ^ 32 := by
  have hpos : ¬ stride.value >>> 2 < 1 := by
    have hwords := stride.words
    have := stride.pos
    rw [BitVec.lt_def, toNat_shiftRight_two, show (1 : Word).toNat = 1 from rfl]
    omega
  unfold bufferWordIndex
  dsimp only
  rw [if_neg hpos, BitVec.toNat_add, BitVec.toNat_mul, toNat_shiftRight_two, toNat_shiftRight_two,
    byteAddress_structured, Nat.mod_add_mod, Nat.mul_comm]

/-- The index that DXIL computes is the exact word on a structured view. On a raw view the byte
address is taken for a number of words, which is right only at 0. -/
theorem bufferWordIndex_exact {a : BufferAccess} {kind : BufferKind} {element byteOffset : Word}
    {c : Fin 4} (ha : a.address = byteAddress kind element.toNat byteOffset.toNat)
    (hin : Inside metadata (a.word c)) :
    (bufferWordIndex kind element byteOffset + component c).toNat = a.word c ↔
      BufferAccess.WordIndexed kind element byteOffset := by
  have hlen := viewLength_lt metadata
  rw [inside_iff] at hin
  cases kind with
  | structured stride =>
    refine iff_true_intro ?_
    rw [toNat_index_component c (ha ▸ toNat_bufferWordIndex_structured stride element byteOffset),
      Nat.mod_eq_of_lt (by omega)]
  | raw =>
    have he := element.isLt
    have hb := (byteOffset >>> 2).isLt
    have hshift := toNat_shiftRight_two byteOffset
    have hoffset := byteOffset.isLt
    have haddress : a.address = element.toNat := ha
    have hword := a.word_eq c
    rw [toNat_add_component]
    show ((element + byteOffset >>> 2).toNat + c.val) % 2 ^ 32 = a.word c ↔
      element = 0 ∧ byteOffset >>> 2 = 0
    rw [BitVec.toNat_add, Nat.mod_add_mod, ← BitVec.toNat_inj, ← BitVec.toNat_inj (y := 0)]
    show _ ↔ element.toNat = 0 ∧ (byteOffset >>> 2).toNat = 0
    -- the sum is too small to come back to the word after a wrap
    have hsum : element.toNat + (byteOffset >>> 2).toNat + c.val < 2 ^ 32 + a.word c := by omega
    by_cases hlt : element.toNat + (byteOffset >>> 2).toNat + c.val < 2 ^ 32
    · rw [Nat.mod_eq_of_lt hlt]
      omega
    · rw [Nat.mod_eq_sub_mod (by omega), Nat.mod_eq_of_lt (by omega)]
      omega

/-- The address of a DXBC atomic operation is exact as long as it is inside the view. -/
theorem loadAtomicOpAddress_exact {kind : BufferKind} {x y : Word}
    (hin : Inside metadata ((BufferAccess.atomic kind x y).word 0)) :
    (loadAtomicOpAddress kind x y).toNat = (BufferAccess.atomic kind x y).word 0 := by
  have hlen := viewLength_lt metadata
  rw [inside_iff, BufferAccess.word_eq] at hin
  rw [BufferAccess.word_eq]
  cases kind with
  | raw => exact toNat_shiftRight_two x
  | structured stride =>
    have haddress : (BufferAccess.atomic (.structured stride) x y).address =
      x.toNat * stride.value.toNat + y.toNat := rfl
    rw [haddress] at hin ⊢
    show ((stride.value * x + y) >>> 2).toNat = _
    rw [toNat_shiftRight_two, BitVec.toNat_add, BitVec.toNat_mul, Nat.mod_add_mod,
      Nat.mul_comm stride.value.toNat, Nat.mod_eq_of_lt]
    · rfl
    · dsimp only [Fin.val_zero] at hin
      omega

/-- **Main result.** The condition is exact. -/
theorem meets_iff (metadata : BitVec 64) (a : BufferAccess) :
    a.Meets metadata ↔ a.Condition metadata := by
  have hload (P : BufferMemory → Prop) :
      (∀ m, ∀ (_ : Fin 4 → Word) (_ : Word → Word), P m) ↔ ∀ m, P m :=
    ⟨fun h m => h m (fun _ => 0) id, fun h m _ _ => h m⟩
  have hstore (P : (Fin 4 → Word) → Prop) :
      (∀ (_ : BufferMemory) values, ∀ (_ : Word → Word), P values) ↔ ∀ values, P values :=
    ⟨fun h values => h (fun _ => 0) values id, fun h _ values _ => h values⟩
  have hatomic (P : BufferMemory → (Word → Word) → Prop) :
      (∀ m, ∀ (_ : Fin 4 → Word), ∀ op, P m op) ↔ ∀ m op, P m op :=
    ⟨fun h m op => h m (fun _ => 0) op, fun h m _ op => h m op⟩
  cases a with
  | loadRaw mask swizzle byteOffset =>
    refine (hload _).trans ((loadAt_iff rfl (toNat_rawIndex byteOffset)).trans ?_)
    refine iff_of_true (fun c hc => Or.inl ?_) trivial
    have := byteOffset.isLt
    have haddress : (BufferAccess.loadRaw mask swizzle byteOffset).address = byteOffset.toNat := rfl
    rw [BufferAccess.word_eq, haddress]
    omega
  | loadStructured stride mask swizzle address byteOffset =>
    exact (hload _).trans (loadAt_iff rfl (toNat_structuredIndex stride address byteOffset))
  | storeRaw mask byteOffset =>
    refine (hstore fun values => BufferAccess.StoreContract _ metadata values
      (instStoreRaw metadata values mask byteOffset)).trans ?_
    by_cases hmask : storeMask mask = true
    · refine (storeAt_iff rfl (toNat_rawIndex byteOffset) hmask).trans ?_
      refine iff_of_true (fun c hc => Or.inl ?_) (Or.inl hmask)
      have := byteOffset.isLt
      have haddress : (BufferAccess.storeRaw mask byteOffset).address = byteOffset.toNat := rfl
      rw [BufferAccess.word_eq, haddress]
      omega
    · exact (storeAt_iff_of_not hmask).trans (or_iff_right hmask).symm
  | storeStructured stride mask address byteOffset =>
    refine (hstore fun values => BufferAccess.StoreContract _ metadata values
      (instStoreStructured metadata values stride mask address byteOffset)).trans ?_
    unfold BufferAccess.Condition
    dsimp only
    split
    case isTrue hmask =>
      exact storeAt_iff rfl (toNat_structuredIndex stride address byteOffset) hmask
    case isFalse hmask => exact storeAt_iff_of_not hmask
  | atomic kind x y =>
    refine (hatomic _).trans (atomicAt_iff.trans ?_)
    exact and_iff_left_of_imp loadAtomicOpAddress_exact
  | bufferLoad kind mask element byteOffset =>
    refine (hload _).trans ((bufferLoad_iff rfl).trans (forall₂_congr fun c hc => ?_))
    exact and_congr_right fun hin => bufferWordIndex_exact rfl hin
  | bufferStore kind mask element byteOffset =>
    refine (hstore fun values => BufferAccess.StoreContract _ metadata values
      (bufferStore values kind mask element byteOffset)).trans
        ((bufferStore_iff rfl).trans (forall₂_congr fun c hc => ?_))
    exact and_congr_right fun hin => bufferWordIndex_exact rfl hin
  | bufferAtomic kind element byteOffset =>
    refine (hatomic _).trans (atomicAt_iff.trans ?_)
    show _ ↔ ∀ c ∈ [0], _
    rw [List.forall_mem_singleton]
    refine and_congr_right fun hin => ?_
    rw [← bufferWordIndex_exact rfl hin, toNat_add_component]
    show _ ↔ ((bufferWordIndex kind element byteOffset).toNat + 0) % 2 ^ 32 = _
    rw [Nat.add_zero, Nat.mod_eq_of_lt (BitVec.isLt _)]

/-- A view of 16 bytes: element 2^30 of a structure of 16 bytes wraps around to its first word, and
an atomic operation at byte 16 is outside. -/
theorem wraps_and_unguarded :
    ¬ (BufferAccess.loadStructured ⟨16, by decide, by decide⟩ 0b1 id 0x40000000 0).Meets 16 ∧
      ¬ (BufferAccess.atomic .raw 16 0).Meets 16 := by
  constructor
  · intro h
    have hzero := (h (fun _ => 7) (fun _ => 0) id).outside 0 (by decide) (by
      unfold Inside
      decide)
    exact absurd hzero (by decide)
  · intro h
    have hnil := (h (fun _ => 7) (fun _ => 0) id).outside (by
      unfold Inside
      decide)
    exact absurd hnil (List.cons_ne_nil _ _)

end Airconv

end Dxmt
