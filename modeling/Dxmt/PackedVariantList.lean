import Dxmt.ByteFormat
import Dxmt.RingBump
import Dxmt.MemoryBlock
import Mathlib.Data.List.Induction

/-!
# Packed lists of variants: `PackedVariantList`

A `PackedVariantList` is one block of memory with the values one behind the other, each behind a tag
that says which of the types of the pack it has. The writer pads for the alignment of a value and of
the next tag, and the reader computes the same padding again.

A list is the only one that points to its block, so the block is part of it here. Every access is
one of `MemoryBlock.read`, `MemoryBlock.write` and `MemoryBlock.memcpy`, which fail outside of the
block, where the address is not aligned, and on bytes that are not initialised.

* `visits_values`: in every run of `push_back` and of assignments no access fails, and `for_each`
  and `any` see the values of each list in their order.

Source: `packed_variant_list.hpp`.
-/

namespace Dxmt

namespace PackedVariant

open ByteFormat

/-! ## The types of the pack -/

/-- A type. Its alignment is a power of two. -/
structure VariantType where
  id : Nat
  size : Nat
  alignmentLog : Nat
deriving DecidableEq

/-- `alignof(T)`. -/
def VariantType.alignof (T : VariantType) : Nat := 2 ^ T.alignmentLog

/-- `Types...`, and the alignment of what `malloc` returns, which serves all of them and `Tag`. -/
structure Pack where
  types : List VariantType
  mallocLog : Nat
  tag_le : 2 ≤ mallocLog
  alignmentLog_le : ∀ T ∈ types, T.alignmentLog ≤ mallocLog
  length_lt : types.length < 2 ^ 32

/-- An address that `malloc` may return. -/
abbrev Pack.Address (pack : Pack) := { address : Nat // 2 ^ pack.mallocLog ∣ address }

/-- A value of one of the types, as its bytes. -/
structure Value (pack : Pack) where
  type : VariantType
  type_mem : type ∈ pack.types
  bytes : List Byte
  length_bytes : bytes.length = type.size

/-- What a visitor is given. -/
abbrev Visited := VariantType × List Byte

/-- What a visitor sees of the value. -/
def Value.visited {pack : Pack} (value : Value pack) : Visited := (value.type, value.bytes)

/-- The position of a type in the pack. -/
def variantIndex (T : VariantType) : List VariantType → Nat
  | [] => 0
  | Tx :: rest => if T = Tx then 0 else 1 + variantIndex T rest

/-- The tag of a type. -/
def tagOf (pack : Pack) (T : VariantType) : Nat := variantIndex T pack.types

/-- Bytes of a tag. -/
def sizeofTag : Nat := 4

/-- The alignment of a tag. -/
def alignofTag : Nat := 4

/-- `(offset + alignment - 1) & ~(alignment - 1)`, which is also how `align` is computed. -/
def alignUp (offset alignment : Nat) : Nat := align offset alignment

/-! ## The list -/

/-- The list: its block, and how much of the block is used. -/
structure PackedVariantList where
  data : Option MemoryBlock := none
  capacity : Nat := 0
  size : Nat := 0

/-- The loop that grows a capacity by 1024 bytes at a time. -/
def growCapacity (newCapacity required : Nat) : Nat :=
  if _h : newCapacity < required then growCapacity (newCapacity + 1024) required else newCapacity
termination_by required - newCapacity
decreasing_by omega

/-- The writer's and the reader's offset of a value behind its tag. -/
def dataOffset (offset : Nat) (T : VariantType) : Nat := alignUp (offset + sizeofTag) T.alignof

/-- The offset of the next tag. -/
def nextOffset (offset : Nat) (T : VariantType) :
    Nat := alignUp (dataOffset offset T + T.size) sizeofTag

/-- The type with a tag, counted from `index`. `std::terminate` is `none`. -/
def dispatchImpl (tag index : Nat) : List VariantType → Option VariantType
  | [] => none
  | T :: rest => if tag = index then some T else dispatchImpl tag (index + 1) rest

namespace PackedVariantList

variable (pack : Pack) (l : PackedVariantList)

/-- `ensure_capacity`: a larger block holds a copy of the bytes. -/
def ensureCapacity (required address : Nat) : Option PackedVariantList :=
  if required ≤ l.capacity then some l
  else
    let newCapacity := growCapacity (if l.capacity ≠ 0 then l.capacity else 1024) required
    let newData := MemoryBlock.alloc address newCapacity
    match l.data with
    | some data =>
      (newData.memcpy data l.size).map fun newData =>
      { l with data := some newData, capacity := newCapacity }
    | none => some { l with data := some newData, capacity := newCapacity }

/-- `push_back` of a value of type `T`. -/
def pushBack (T : VariantType) (value : List Byte) (address : Nat) : Option PackedVariantList :=
  let offset := l.size
  let totalSize := nextOffset offset T
  (l.ensureCapacity totalSize address).bind fun l =>
    l.data.bind fun data =>
      (data.write alignofTag offset (littleEndian sizeofTag (tagOf pack T))).bind fun data =>
        (data.write T.alignof (dataOffset offset T) value).map fun data =>
          { l with data := some data, size := totalSize }

/-- `operator=` from another list. Copying no bytes does not look at the source. -/
def assign (copy : PackedVariantList) (address : Nat) : Option PackedVariantList :=
  let data := MemoryBlock.alloc address copy.capacity
  match copy.data with
  | some source => (data.memcpy source copy.size).map fun data => { copy with data := some data }
  | none => if copy.size = 0 then some { copy with data := some data } else none

/-- The value behind the tag at an offset, and the offset of the next tag. -/
def dispatch (offset : Nat) : Option (Visited × Nat) :=
  l.data.bind fun data =>
    (data.read alignofTag offset sizeofTag).bind fun tag =>
      (dispatchImpl (ofLittleEndian tag) 0 pack.types).bind fun T =>
        (data.read T.alignof (dataOffset offset T) T.size).map fun value =>
        ((T, value), nextOffset offset T)

/-- The loop of `for_each`, with the state of the visitor. Every turn takes at least a tag, so that
the size is enough `fuel`. -/
def forEachLoop {σ : Type} (visitor : σ → Visited → σ) : (fuel offset : Nat) → σ → Option σ
  | 0, offset, s => if offset < l.size then none else some s
  | fuel + 1, offset, s =>
    if offset < l.size then
      (dispatch pack l offset).bind fun visited => forEachLoop visitor fuel visited.2
      (visitor s visited.1)
    else some s

/-- `for_each`: a turn reads at least one byte, so `size` turns are enough. -/
def forEach {σ : Type} (visitor : σ → Visited → σ) (s : σ) : Option σ :=
  forEachLoop pack l visitor l.size 0 s

/-- The loop of `any`, which stops at the first value that the visitor accepts. -/
def anyLoop (visitor : Visited → Bool) : (fuel offset : Nat) → Option Bool
  | 0, offset => if offset < l.size then none else some false
  | fuel + 1, offset =>
    if offset < l.size then
      (dispatch pack l offset).bind fun visited =>
        if visitor visited.1 then some true else anyLoop visitor fuel visited.2
    else some false

/-- `any`. -/
def any (visitor : Visited → Bool) : Option Bool :=
  anyLoop pack l visitor l.size 0

end PackedVariantList

open PackedVariantList

/-! ## Runs -/

/-- A call on the lists of a program, with the address that `malloc` returns if it is called. -/
inductive Call (pack : Pack) where
  | pushBack (list : Nat) (value : Value pack) (address : pack.Address)
  | assign (list copy : Nat) (another : list ≠ copy) (address : pack.Address)

variable {pack : Pack}

/-- One call on one of the lists. -/
def Call.run (lists : Nat → PackedVariantList) : Call pack → Option (Nat → PackedVariantList)
  | .pushBack list value address =>
    ((lists list).pushBack pack value.type value.bytes address).map (Function.update lists list)
  | .assign list copy _ address =>
    (PackedVariantList.assign (lists copy) address).map (Function.update lists list)

/-- What the lists should hold. -/
def Call.values (values : Nat → List (Value pack)) : Call pack → Nat → List (Value pack)
  | .pushBack list value _ => Function.update values list (values list ++ [value])
  | .assign list copy _ _ => Function.update values list (values copy)

/-- All lists are empty at first. -/
def run (calls : List (Call pack)) : Option (Nat → PackedVariantList) :=
  calls.foldlM Call.run fun _ => {}

/-- The values that the calls put into each list. -/
def values (calls : List (Call pack)) : Nat → List (Value pack) :=
  calls.foldl Call.values fun _ => []

/-! ## Padding -/

theorem le_dataOffset (offset : Nat) (T : VariantType) : offset + 4 ≤ dataOffset offset T :=
  le_align _ T.alignmentLog

theorem dvd_dataOffset (offset : Nat) (T : VariantType) : T.alignof ∣ dataOffset offset T :=
  dvd_align _ T.alignmentLog

theorem le_nextOffset (offset : Nat) (T : VariantType) :
    dataOffset offset T + T.size ≤ nextOffset offset T :=
  le_align _ 2

theorem dvd_nextOffset (offset : Nat) (T : VariantType) : 4 ∣ nextOffset offset T :=
  dvd_align _ 2

/-! ## Tags -/

theorem variantIndex_lt {T : VariantType} {types : List VariantType} (h : T ∈ types) :
    variantIndex T types < types.length := by
  induction types with
  | nil => cases h
  | cons Tx rest ih =>
    rw [variantIndex, List.length_cons]
    by_cases heq : T = Tx
    · rw [if_pos heq]
      exact Nat.zero_lt_succ _
    · rw [if_neg heq]
      have hrest := ih ((List.mem_cons.mp h).resolve_left heq)
      omega

/-- The tag of a type leads back to it. -/
theorem dispatchImpl_variantIndex {T : VariantType} {types : List VariantType} (h : T ∈ types)
    (index : Nat) :
    dispatchImpl (index + variantIndex T types) index types = some T := by
  induction types generalizing index with
  | nil => cases h
  | cons Tx rest ih =>
    rw [variantIndex, dispatchImpl]
    by_cases heq : T = Tx
    · rw [if_pos heq, if_pos (Nat.add_zero index), heq]
    · rw [if_neg heq, if_neg (by omega), ← Nat.add_assoc]
      exact ih ((List.mem_cons.mp h).resolve_left heq) (index + 1)

/-- The bytes of the value's tag. -/
def Value.tagBytes (value : Value pack) :
    List Byte := littleEndian sizeofTag (tagOf pack value.type)

theorem dispatchImpl_tagBytes (value : Value pack) :
    dispatchImpl (ofLittleEndian value.tagBytes) 0 pack.types = some value.type := by
  have hlt : tagOf pack value.type < 256 ^ sizeofTag :=
    Nat.lt_trans (variantIndex_lt value.type_mem) pack.length_lt
  have hindex := dispatchImpl_variantIndex value.type_mem 0
  rw [Nat.zero_add] at hindex
  rw [Value.tagBytes, ofLittleEndian_littleEndian hlt]
  exact hindex

/-! ## What a block holds -/

/-- From the offset on up to `size` the bytes are those of the values, with their tags and padding.
-/
def Encodes (bytes : Nat → Option Byte) : Nat → List (Value pack) → Nat → Prop
  | offset, [], size => offset = size
  | offset, value :: values, size =>
    MemoryBlock.Stored bytes offset value.tagBytes ∧
      MemoryBlock.Stored bytes (dataOffset offset value.type) value.bytes ∧
      Encodes bytes (nextOffset offset value.type) values size

/-- The bytes of a list, none without a block. -/
def PackedVariantList.bytes (l : PackedVariantList) : Nat → Option Byte :=
  match l.data with
  | some data => data.bytes
  | none => fun _ => none

/-- The invariant of a list with these values. -/
structure Holds (l : PackedVariantList) (values : List (Value pack)) : Prop where
  size_le : l.size ≤ l.capacity
  dvd_size : 4 ∣ l.size
  block : ∀ data, l.data = some data → data.size = l.capacity ∧ 2 ^ pack.mallocLog ∣ data.address
  no_block : l.data = none → l.capacity = 0
  encodes : Encodes l.bytes 0 values l.size

section Encoded

variable {bytes bytes' : Nat → Option Byte} {offset size : Nat} {values : List (Value pack)}
    {value : Value pack}

theorem length_tagBytes (value : Value pack) : value.tagBytes.length = 4 :=
  length_littleEndian _ _

theorem Encodes.le (h : Encodes bytes offset values size) : offset ≤ size := by
  induction values generalizing offset with
  | nil => exact Nat.le_of_eq h
  | cons value values ih =>
    have hrest := ih h.2.2
    have hdata := le_dataOffset offset value.type
    have hnext := le_nextOffset offset value.type
    omega

/-- Only the bytes below the size matter. -/
theorem Encodes.congr (h : Encodes bytes offset values size)
    (heq : ∀ i < size, bytes' i = bytes i) :
    Encodes bytes' offset values size := by
  induction values generalizing offset with
  | nil => exact h
  | cons value values ih =>
    obtain ⟨htag, hbytes, hrest⟩ := h
    have hle := hrest.le
    have hdata := le_dataOffset offset value.type
    have hnext := le_nextOffset offset value.type
    refine ⟨htag.congr fun i _ hi => heq i ?_, hbytes.congr fun i _ hi => heq i ?_, ih hrest⟩
    · rw [length_tagBytes] at hi
      omega
    · rw [value.length_bytes] at hi
      omega

/-- A value that is stored behind the others is one of them. -/
theorem Encodes.snoc (h : Encodes bytes offset values size)
    (htag : MemoryBlock.Stored bytes size value.tagBytes)
    (hbytes : MemoryBlock.Stored bytes (dataOffset size value.type) value.bytes) :
    Encodes bytes offset (values ++ [value]) (nextOffset size value.type) := by
  induction values generalizing offset with
  | nil =>
    cases h
    exact ⟨htag, hbytes, rfl⟩
  | cons other values ih => exact ⟨h.1, h.2.1, ih h.2.2⟩

end Encoded

section Access

variable {data : MemoryBlock} {offset count : Nat} {value : Value pack}

/-- The alignments of tags and of values divide that of the block. -/
theorem accessible_tag (haddress : 2 ^ pack.mallocLog ∣ data.address) (hoffset : 4 ∣ offset)
    (hin : offset + count ≤ data.size) : data.Accessible alignofTag offset count :=
  ⟨hin, Nat.dvd_add ((Nat.pow_dvd_pow 2 pack.tag_le).trans haddress) hoffset⟩

theorem accessible_value (value : Value pack) (haddress : 2 ^ pack.mallocLog ∣ data.address)
    (hin : dataOffset offset value.type + count ≤ data.size) :
    data.Accessible value.type.alignof (dataOffset offset value.type) count := by
  have hlog := pack.alignmentLog_le value.type value.type_mem
  exact ⟨hin, Nat.dvd_add ((Nat.pow_dvd_pow 2 hlog).trans haddress)
      (dvd_dataOffset offset value.type)⟩

/-- **The reader takes the steps of the writer.** -/
theorem dispatch_eq {l : PackedVariantList} {values : List (Value pack)} {all : List (Value pack)}
    (h : Holds l all) (hoffset : 4 ∣ offset)
    (hencodes : Encodes l.bytes offset (value :: values) l.size) :
    dispatch pack l offset = some (value.visited, nextOffset offset value.type) := by
  obtain ⟨htag, hbytes, hrest⟩ := hencodes
  have hle := hrest.le
  have hdata := le_dataOffset offset value.type
  have hnext := le_nextOffset offset value.type
  have hsize := h.size_le
  cases hblock : l.data with
  | none =>
    have hcapacity := h.no_block hblock
    omega
  | some data =>
    obtain ⟨hcapacity, haddress⟩ := h.block data hblock
    have hin : l.bytes = data.bytes := by
      rw [PackedVariantList.bytes, hblock]
    rw [hin] at htag hbytes
    have hread : data.read alignofTag offset sizeofTag = some value.tagBytes := by
      refine MemoryBlock.read_eq (accessible_tag haddress hoffset ?_) htag (length_tagBytes value)
      show offset + 4 ≤ data.size
      omega
    have hvalue : data.read value.type.alignof (dataOffset offset value.type) value.type.size =
        some value.bytes :=
      MemoryBlock.read_eq (accessible_value value haddress (by omega)) hbytes value.length_bytes
    rw [dispatch, hblock, Option.bind_some, hread, Option.bind_some, dispatchImpl_tagBytes,
      Option.bind_some, hvalue]
    rfl

end Access

/-! ## The readers -/

section Readers

variable {l : PackedVariantList} {all : List (Value pack)}

theorem forEachLoop_eq (h : Holds l all) {σ : Type} (visitor : σ → Visited → σ)
    {values : List (Value pack)} {fuel offset : Nat}
    (hencodes : Encodes l.bytes offset values l.size) (hoffset : 4 ∣ offset)
    (hfuel : l.size ≤ offset + fuel) (s : σ) :
    forEachLoop pack l visitor fuel offset s =
      some ((values.map Value.visited).foldl visitor s) := by
  induction values generalizing fuel offset s with
  | nil =>
    cases hencodes
    cases fuel with
    | zero => exact if_neg (Nat.lt_irrefl _)
    | succ fuel => exact if_neg (Nat.lt_irrefl _)
  | cons value values ih =>
    have hle := hencodes.2.2.le
    have hdata := le_dataOffset offset value.type
    have hnext := le_nextOffset offset value.type
    have hlt : offset < l.size := by omega
    cases fuel with
    | zero => omega
    | succ fuel =>
      rw [forEachLoop, if_pos hlt, dispatch_eq h hoffset hencodes, Option.bind_some]
      exact ih hencodes.2.2 (dvd_nextOffset offset value.type) (by omega) (visitor s value.visited)

theorem forEach_eq (h : Holds l all) {σ : Type} (visitor : σ → Visited → σ) (s : σ) :
    forEach pack l visitor s = some ((all.map Value.visited).foldl visitor s) :=
  forEachLoop_eq h visitor h.encodes (Nat.dvd_zero 4) (by omega) s

theorem anyLoop_eq (h : Holds l all) (visitor : Visited → Bool) {values : List (Value pack)}
    {fuel offset : Nat} (hencodes : Encodes l.bytes offset values l.size) (hoffset : 4 ∣ offset)
    (hfuel : l.size ≤ offset + fuel) :
    anyLoop pack l visitor fuel offset = some ((values.map Value.visited).any visitor) := by
  induction values generalizing fuel offset with
  | nil =>
    cases hencodes
    cases fuel with
    | zero => exact if_neg (Nat.lt_irrefl _)
    | succ fuel => exact if_neg (Nat.lt_irrefl _)
  | cons value values ih =>
    have hle := hencodes.2.2.le
    have hdata := le_dataOffset offset value.type
    have hnext := le_nextOffset offset value.type
    have hlt : offset < l.size := by omega
    cases fuel with
    | zero => omega
    | succ fuel =>
      rw [anyLoop, if_pos hlt, dispatch_eq h hoffset hencodes, Option.bind_some, List.map_cons,
        List.any_cons]
      dsimp only
      by_cases hvisitor : visitor value.visited = true
      · rw [if_pos hvisitor, hvisitor, Bool.true_or]
      · rw [if_neg hvisitor, Bool.eq_false_iff.mpr hvisitor, Bool.false_or]
        exact ih hencodes.2.2 (dvd_nextOffset offset value.type) (by omega)

theorem any_eq (h : Holds l all) (visitor : Visited → Bool) :
    PackedVariantList.any pack l visitor = some ((all.map Value.visited).any visitor) :=
  anyLoop_eq h visitor h.encodes (Nat.dvd_zero 4) (by omega)

end Readers

/-! ## The writers -/

section Writers

variable {l : PackedVariantList} {all : List (Value pack)}

theorem le_growCapacity (newCapacity required : Nat) :
    newCapacity ≤ growCapacity newCapacity required ∧
      required ≤ growCapacity newCapacity required := by
  fun_induction growCapacity newCapacity required with
  | case1 newCapacity hlt ih => exact ⟨by omega, ih.2⟩
  | case2 newCapacity hge => exact ⟨Nat.le_refl _, Nat.le_of_not_lt hge⟩

theorem holds_empty : @Holds pack {} [] where
  size_le := Nat.le_refl 0
  dvd_size := Nat.dvd_zero 4
  block _ h := nomatch h
  no_block _ := rfl
  encodes := rfl

/-- A block with the bytes of the list can stand in for its own. -/
theorem Holds.replace (h : Holds l all) {data : MemoryBlock} {capacity : Nat}
    (hroom : l.size ≤ capacity) (hsize : data.size = capacity)
    (haddress : 2 ^ pack.mallocLog ∣ data.address)
    (hbytes : ∀ i < l.size, data.bytes i = l.bytes i) :
    Holds { data := some data, capacity := capacity, size := l.size } all where
  size_le := hroom
  dvd_size := h.dvd_size
  block := by
    rintro data' ⟨⟩
    exact ⟨hsize, haddress⟩
  no_block hnone := nomatch hnone
  encodes := h.encodes.congr hbytes

/-- A list without a block has no values, and gets a new one. -/
theorem Holds.alloc (h : Holds l all) (hblock : l.data = none) (address : pack.Address)
    (capacity : Nat) :
    Holds
      { data := some (MemoryBlock.alloc address capacity), capacity := capacity, size := l.size }
      all := by
  have hsize := h.size_le
  have hzero := h.no_block hblock
  exact h.replace (by omega) rfl address.2 fun i hi => by omega

/-- A new block with room for the values takes them. -/
theorem Holds.memcpy (h : Holds l all) {source : MemoryBlock} (hblock : l.data = some source)
    {capacity : Nat} (hroom : l.size ≤ capacity) (address : pack.Address) :
    ∃ data, (MemoryBlock.alloc address capacity).memcpy source l.size = some data ∧
      Holds { data := some data, capacity := capacity, size := l.size } all := by
  obtain ⟨hsource, -⟩ := h.block source hblock
  have hsize := h.size_le
  have hbytes : l.bytes = source.bytes := by
    rw [PackedVariantList.bytes, hblock]
  refine ⟨_, MemoryBlock.memcpy_eq hroom (by omega), h.replace hroom rfl address.2 fun i hi => ?_⟩
  rw [hbytes]
  exact MemoryBlock.copy_bytes hi

/-- Growing keeps the values, and then there is room. -/
theorem ensureCapacity_spec (h : Holds l all) {required : Nat} (hrequired : 0 < required)
    (address : pack.Address) :
    ∃ l' data, l.ensureCapacity required address = some l' ∧ l'.data = some data ∧ Holds l' all ∧
      l'.size = l.size ∧ required ≤ l'.capacity := by
  unfold ensureCapacity
  by_cases hroom : required ≤ l.capacity
  · rw [if_pos hroom]
    cases hblock : l.data with
    | none =>
      have hcapacity := h.no_block hblock
      omega
    | some data => exact ⟨l, data, rfl, hblock, h, rfl, hroom⟩
  · rw [if_neg hroom]
    obtain ⟨hgrow, henough⟩ :=
      le_growCapacity (if l.capacity ≠ 0 then l.capacity else 1024) required
    have hcapacity : l.capacity ≤ if l.capacity ≠ 0 then l.capacity else 1024 := by
      split <;> omega
    generalize growCapacity (if l.capacity ≠ 0 then l.capacity else 1024) required =
      newCapacity at hgrow henough
    have hfits : l.size ≤ newCapacity := h.size_le.trans (hcapacity.trans hgrow)
    cases hblock : l.data with
    | none => exact ⟨_, _, rfl, rfl, h.alloc hblock address newCapacity, rfl, henough⟩
    | some data =>
      obtain ⟨newData, hcopy, hholds⟩ := h.memcpy hblock hfits address
      dsimp only
      rw [hcopy]
      exact ⟨_, newData, rfl, rfl, hholds, rfl, henough⟩

/-- **`push_back`** adds the value behind the others. -/
theorem pushBack_spec (h : Holds l all) (value : Value pack) (address : pack.Address) :
    ∃ l', l.pushBack pack value.type value.bytes address = some l' ∧ Holds l' (all ++ [value]) := by
  have hdata := le_dataOffset l.size value.type
  have hnext := le_nextOffset l.size value.type
  obtain ⟨l', data, hensure, hblock, hholds, hsize, hroom⟩ :=
    ensureCapacity_spec h (show 0 < nextOffset l.size value.type by omega) address
  obtain ⟨hcapacity, haddress⟩ := hholds.block data hblock
  have hbytes : l'.bytes = data.bytes := by
    rw [PackedVariantList.bytes, hblock]
  have htag : data.write alignofTag l.size value.tagBytes =
      some (data.put l.size value.tagBytes) := by
    refine MemoryBlock.write_eq (accessible_tag haddress h.dvd_size ?_)
    rw [length_tagBytes]
    omega
  have hvalue : (data.put l.size value.tagBytes).write value.type.alignof
      (dataOffset l.size value.type) value.bytes =
        some ((data.put l.size value.tagBytes).put (dataOffset l.size value.type) value.bytes) := by
    refine MemoryBlock.write_eq (accessible_value value haddress ?_)
    rw [value.length_bytes]
    show _ ≤ data.size
    omega
  refine ⟨{ l' with
    data := some ((data.put l.size value.tagBytes).put (dataOffset l.size value.type) value.bytes)
    size := nextOffset l.size value.type }, ?_, hroom, dvd_nextOffset l.size value.type, ?_,
    (fun hnone => nomatch hnone), ?_⟩
  · rw [pushBack, hensure, Option.bind_some, hblock, Option.bind_some]
    rw [show littleEndian sizeofTag (tagOf pack value.type) = value.tagBytes from rfl, htag,
      Option.bind_some, hvalue]
    rfl
  · rintro data' ⟨⟩
    exact ⟨hcapacity, haddress⟩
  · -- the values that were there are in front of the tag, and the tag is in front of the value
    have hencodes := hholds.encodes
    rw [hbytes, hsize] at hencodes
    have hstored :
        MemoryBlock.Stored (data.put l.size value.tagBytes).bytes l.size value.tagBytes :=
      MemoryBlock.stored_put
    refine Encodes.snoc (hencodes.congr fun i hi => ?_) (hstored.congr fun i _ hi => ?_)
      MemoryBlock.stored_put
    · change ((data.put l.size value.tagBytes).put (dataOffset l.size value.type)
        value.bytes).bytes i = data.bytes i
      rw [MemoryBlock.put_bytes (.inl (by omega)), MemoryBlock.put_bytes (.inl hi)]
    · rw [length_tagBytes] at hi
      exact MemoryBlock.put_bytes (.inl (by omega))

/-- **Assignment** copies the values of the other list. -/
theorem assign_spec (h : Holds l all) (address : pack.Address) :
    ∃ l', PackedVariantList.assign l address = some l' ∧ Holds l' all := by
  have hsize := h.size_le
  unfold PackedVariantList.assign
  cases hblock : l.data with
  | none =>
    have hcapacity := h.no_block hblock
    dsimp only
    rw [if_pos (show l.size = 0 by omega)]
    exact ⟨_, rfl, h.alloc hblock address l.capacity⟩
  | some data =>
    obtain ⟨newData, hcopy, hholds⟩ := h.memcpy hblock hsize address
    dsimp only
    rw [hcopy]
    exact ⟨_, rfl, hholds⟩

end Writers

/-! ## All runs -/

/-- A call keeps what the lists hold. -/
theorem call_spec {lists : Nat → PackedVariantList} {values : Nat → List (Value pack)}
    (h : ∀ i, Holds (lists i) (values i)) (call : Call pack) :
    ∃ lists', call.run lists = some lists' ∧ ∀ i, Holds (lists' i) (call.values values i) := by
  have hupdate : ∀ (list : Nat) {l : PackedVariantList} {vs : List (Value pack)}, Holds l vs →
      ∀ i, Holds (Function.update lists list l i) (Function.update values list vs i) := by
    intro list l vs hholds i
    by_cases hi : i = list
    · subst hi
      rw [Function.update_self, Function.update_self]
      exact hholds
    · rw [Function.update_of_ne hi, Function.update_of_ne hi]
      exact h i
  cases call with
  | pushBack list value address =>
    obtain ⟨l', hpush, hholds⟩ := pushBack_spec (h list) value address
    refine ⟨Function.update lists list l', ?_, hupdate list hholds⟩
    rw [Call.run, hpush]
    rfl
  | assign list copy _ address =>
    obtain ⟨l', hassign, hholds⟩ := assign_spec (h copy) address
    refine ⟨Function.update lists list l', ?_, hupdate list hholds⟩
    rw [Call.run, hassign]
    rfl

theorem holds_run (calls : List (Call pack)) :
    ∃ lists, run calls = some lists ∧ ∀ i, Holds (lists i) (values calls i) := by
  induction calls using List.reverseRecOn with
  | nil => exact ⟨_, rfl, fun i => holds_empty⟩
  | append_singleton calls call ih =>
    obtain ⟨lists, hrun, hholds⟩ := ih
    obtain ⟨lists', hcall, hholds'⟩ := call_spec hholds call
    refine ⟨lists', ?_, ?_⟩
    · unfold run at hrun ⊢
      rw [List.foldlM_append, hrun]
      show List.foldlM Call.run lists [call] = some lists'
      rw [List.foldlM_cons, hcall]
      rfl
    · unfold values
      rw [List.foldl_append]
      exact hholds'

/-- **A packed list is a list**: in every run each access succeeds, and what is visited in each list
are the values that were pushed to it or copied into it. -/
theorem visits_values (calls : List (Call pack)) :
    ∃ lists, run calls = some lists ∧ ∀ i,
      (∀ (σ : Type) (visitor : σ → Visited → σ) (s : σ),
        forEach pack (lists i) visitor s =
          some (((values calls i).map Value.visited).foldl visitor s)) ∧
      ∀ visitor : Visited → Bool, ∃ found, PackedVariantList.any pack (lists i) visitor =
        some found ∧
        (found = true ↔ ∃ value ∈ values calls i, visitor value.visited = true) := by
  obtain ⟨lists, hrun, hholds⟩ := holds_run calls
  refine ⟨lists, hrun, fun i => ⟨fun σ visitor s => forEach_eq (hholds i) visitor s,
      fun visitor => ?_⟩⟩
  refine ⟨_, any_eq (hholds i) visitor, ?_⟩
  rw [List.any_eq_true]
  simp only [List.mem_map, exists_exists_and_eq_and]

/-- A type of one byte, and one of two words of 64 bits. -/
def flagAndWords : Pack where
  types := [⟨0, 1, 0⟩, ⟨1, 16, 3⟩]
  mallocLog := 4
  tag_le := by decide
  alignmentLog_le := by decide
  length_lt := by decide

/-- The byte. -/
def flag : Value flagAndWords := ⟨⟨0, 1, 0⟩, List.mem_cons_self, [1], rfl⟩

/-- The words. -/
def words : Value flagAndWords :=
  ⟨⟨1, 16, 3⟩, List.mem_cons_of_mem _ List.mem_cons_self, List.replicate 16 7, rfl⟩

/-- The first list gets a byte and the words, is copied, and gets another byte. -/
def pushesAndCopy : List (Call flagAndWords) :=
  [.pushBack 0 flag ⟨16, by decide⟩, .pushBack 0 words ⟨16, by decide⟩,
    .assign 1 0 (by decide) ⟨2048, by decide⟩, .pushBack 0 flag ⟨16, by decide⟩]

/-- The copy has no second byte, though the list it was made from has. -/
theorem visits_values_pushesAndCopy :
    ∃ lists, run pushesAndCopy = some lists ∧
      forEach flagAndWords (lists 0) (fun seen value => seen ++ [value]) [] =
        some [flag.visited, words.visited, flag.visited] ∧
      forEach flagAndWords (lists 1) (fun seen value => seen ++ [value]) [] =
        some [flag.visited, words.visited] := by
  obtain ⟨lists, hrun, hvisits⟩ := visits_values pushesAndCopy
  exact ⟨lists, hrun, (hvisits 0).1 _ _ _, (hvisits 1).1 _ _ _⟩

end PackedVariant

end Dxmt
