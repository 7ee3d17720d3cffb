import Dxmt.Subresources

/-!
# Overlap of resource subsets: `ResourceSubsetState`

A view says which part of its resource it is of in one 64-bit word: nothing at all for the whole
resource, a slice of a buffer, the bits of the subresources where there are few, or their ranges.
`overlapWith` compares two words.

A `View` is a view of a resource, and `View.Denotes` what it is a view of. The bits that a
constructor does not write are a parameter.

* `overlapExact_iff`: `overlapWith` is symmetric and exact for two views exactly where they are
  `Comparable`.

Source: `dxmt_subresource.hpp`, `dxmt_subresource.cpp`.
-/

namespace Dxmt

namespace SubresourceOverlap

/-! ## The word -/

/-- `ResourceSubsetState`: a tag, and 62 bits that are read as the tag says. -/
structure ResourceSubsetState where
  word : BitVec 64
deriving DecidableEq

namespace ResourceSubsetState

variable (s : ResourceSubsetState)

/-- The two low bits: which of the four layouts the word has. -/
def encodedTag : BitVec 2 := s.word.extractLsb' 0 2

/-! `BufferSlice` -/

/-- First byte of a buffer slice. -/
def offset : BitVec 31 := s.word.extractLsb' 2 31

/-- Bytes of a buffer slice. -/
def length : BitVec 31 := s.word.extractLsb' 33 31

/-! `TextureBitmaskSubset` -/

/-- The subresources of a small texture, one bit each. -/
def mask : BitVec 62 := s.word.extractLsb' 2 62

/-! `TextureSubset` -/

/-- The planes of a large texture. -/
def planarMask : BitVec 30 := s.word.extractLsb' 2 30

/-- First mip level of a large texture's view. -/
def mipStart : BitVec 4 := s.word.extractLsb' 32 4

/-- First array slice of a large texture's view. -/
def arrayStart : BitVec 12 := s.word.extractLsb' 36 12

/-- The mip level after the last; four bits, so it wraps. -/
def mipEnd : BitVec 4 := s.word.extractLsb' 48 4

/-- The array slice after the last; twelve bits, so it wraps. -/
def arrayEnd : BitVec 12 := s.word.extractLsb' 52 12

/-- Fields of 31 bits become `int`, so the sums are signed. -/
def bufferOverlap (other : ResourceSubsetState) : Bool :=
  (s.offset.setWidth 32).slt (other.offset.setWidth 32 + other.length.setWidth 32) &&
    (other.offset.setWidth 32).slt (s.offset.setWidth 32 + s.length.setWidth 32)

/-- Two masks share a bit. -/
def bitmaskOverlap (other : ResourceSubsetState) : Bool :=
  s.mask &&& other.mask != 0

/-- Two boxes of planes, mips and slices meet. -/
def textureOverlap (other : ResourceSubsetState) : Bool :=
  (s.planarMask &&& other.planarMask != 0) && decide (s.mipStart < other.mipEnd) &&
    decide (other.mipStart < s.mipEnd) && decide (s.arrayStart < other.arrayEnd) &&
      decide (other.arrayStart < s.arrayEnd)

/-- `overlapWith`: words of two different layouts do not overlap, and a word without a layout
overlaps everything. -/
def overlapWith (other : ResourceSubsetState) : Bool :=
  if s.encodedTag ≠ 0 ∧ other.encodedTag ≠ 0 ∧ s.encodedTag ≠ other.encodedTag then false
  else if s.encodedTag = 0b01 then s.bufferOverlap other
  else if s.encodedTag = 0b11 then s.bitmaskOverlap other
  else if s.encodedTag = 0b10 then s.textureOverlap other
  else true

end ResourceSubsetState

open ResourceSubsetState

/-! ## The constructors -/

/-- The whole resource. Only the tag is written, over bits that are not initialised. -/
def wholeState (garbage : BitVec 62) : ResourceSubsetState :=
  ⟨garbage ++ (0b00#2)⟩

/-- The word of a buffer slice; offset and length lose their top bit. -/
def bufferState (bufferOffset bufferLength : BitVec 32) : ResourceSubsetState :=
  ⟨bufferLength.setWidth 31 ++ bufferOffset.setWidth 31 ++ (0b01#2)⟩

/-- The formats with two planes. -/
inductive WMTPixelFormat where
  | x32G8X32
  | r32X8X32
  | depth32FloatStencil8
  | depth24UnormStencil8
  | x32Stencil8
  | x24Stencil8
  | other
deriving DecidableEq

/-- `GetPlanarCount`. -/
def getPlanarCount : WMTPixelFormat → Nat
  | .x32G8X32 => 2
  | .r32X8X32 => 2
  | .depth32FloatStencil8 => 2
  | .depth24UnormStencil8 => 2
  | .x32Stencil8 => 2
  | .x24Stencil8 => 2
  | .other => 1

/-- `GetPlanarMask`: the planes that a view of the format sees. -/
def getPlanarMask : WMTPixelFormat → BitVec 32
  | .x32G8X32 => 0b10
  | .r32X8X32 => 0b01
  | .depth32FloatStencil8 => 0b11
  | .depth24UnormStencil8 => 0b11
  | .x32Stencil8 => 0b10
  | .x24Stencil8 => 0b10
  | .other => 1

/-- What `ResourceSubsetState` reads of a texture view's description. -/
structure TextureViewDescriptor where
  format : WMTPixelFormat
  firstMiplevel : BitVec 4
  miplevelCount : BitVec 4
  firstArraySlice : BitVec 12
  arraySize : BitVec 12
deriving DecidableEq

namespace TextureViewDescriptor

variable (desc : TextureViewDescriptor) (totalMipCount totalArraySize : Nat)

/-- The planes of the format that are not ignored. -/
def planes (ignorePlanarMask : BitVec 32) : BitVec 32 :=
  getPlanarMask desc.format &&& ~~~ignorePlanarMask

/-- The number of subresources in as many planes as the format has. -/
def total : Nat :=
  TextureCopy.u32 (getPlanarCount desc.format * totalMipCount * totalArraySize)

/-- The bit of a subresource. -/
def bitIndex (planar slice level : Nat) : Nat :=
  TextureCopy.u32 (planar * totalArraySize * totalMipCount + slice * totalMipCount + level)

/-- The loops over planes, slices and levels. -/
def bits (planarMask : BitVec 32) : BitVec 64 :=
  (List.range (getPlanarCount desc.format)).foldl (fun bits planar =>
    (List.range' desc.firstArraySlice.toNat desc.arraySize.toNat).foldl (fun bits slice =>
      (List.range' desc.firstMiplevel.toNat desc.miplevelCount.toNat).foldl (fun bits level =>
        if (1#32 <<< planar) &&& planarMask ≠ 0 then
          bits ||| (1#64 <<< bitIndex totalMipCount totalArraySize planar slice level)
        else bits) bits) bits) 0#64

end TextureViewDescriptor

/-- The word of a texture view: a mask up to 62 subresources, a box above. -/
def textureState (desc : TextureViewDescriptor) (totalMipCount totalArraySize : Nat)
    (ignorePlanarMask : BitVec 32) : ResourceSubsetState :=
  if desc.total totalMipCount totalArraySize ≤ 62 then
    ⟨(desc.bits totalMipCount totalArraySize (desc.planes ignorePlanarMask)).setWidth 62 ++
      (0b11#2)⟩
  else
    ⟨(desc.firstArraySlice + desc.arraySize) ++ (desc.firstMiplevel + desc.miplevelCount) ++
      desc.firstArraySlice ++ desc.firstMiplevel ++ (desc.planes ignorePlanarMask).setWidth 30 ++
        (0b10#2)⟩

/-! ## Views -/

/-- A texture with up to fifteen mips. The slices fit in a view of all of them. -/
structure Texture where
  mips : Nat
  arraySize : Nat
  planes : Nat
  mips_pos : 0 < mips
  mips_le : mips ≤ 15
  arraySize_pos : 0 < arraySize
  arraySize_lt : arraySize < 2 ^ 12
  planes_pos : 0 < planes
deriving DecidableEq

/-- A buffer of so many bytes, or a texture. -/
inductive Resource where
  | buffer (size : Nat) (pos : 0 < size) (lt : size < 2 ^ 32)
  | texture (texture : Texture)
deriving DecidableEq

/-- A byte of a buffer, or a subresource of a texture. -/
inductive Cell where
  | byte (index : Nat)
  | subresource (plane mip slice : Nat)
deriving DecidableEq

/-- The resource has the cell. -/
def Resource.Has : Resource → Cell → Prop
  | .buffer size _ _, .byte index => index < size
  | .texture t, .subresource plane mip slice =>
    plane < t.planes ∧ mip < t.mips ∧ slice < t.arraySize
  | _, _ => False

/-- A slice of a buffer. -/
structure Slice (size : Nat) where
  offset : BitVec 32
  length : BitVec 32
  inside : offset.toNat + length.toNat ≤ size
deriving DecidableEq

/-- A view of some mips and slices, in a format with no more planes than the texture has. -/
structure TextureView (texture : Texture) where
  desc : TextureViewDescriptor
  ignorePlanarMask : BitVec 32
  mips_le : desc.firstMiplevel.toNat + desc.miplevelCount.toNat ≤ texture.mips
  slices_le : desc.firstArraySlice.toNat + desc.arraySize.toNat ≤ texture.arraySize
  planes_le : getPlanarCount desc.format ≤ texture.planes
deriving DecidableEq

/-- A view of the whole resource, of a slice of a buffer or of some subresources of a texture. -/
inductive View : Resource → Type where
  | whole {r : Resource} : View r
  | slice {size : Nat} {pos : 0 < size} {lt : size < 2 ^ 32} (slice : Slice size) :
    View (.buffer size pos lt)
  | texture {texture : Texture} (view : TextureView texture) : View (.texture texture)

/-- The word that the view keeps. -/
def View.state {r : Resource} (garbage : BitVec 62) : View r → ResourceSubsetState
  | .whole => wholeState garbage
  | .slice v => bufferState v.offset v.length
  | @View.texture t v => textureState v.desc t.mips t.arraySize v.ignorePlanarMask

/-- The byte is in the slice. -/
def Slice.Denotes {size : Nat} (slice : Slice size) (index : Nat) : Prop :=
  slice.offset.toNat ≤ index ∧ index < slice.offset.toNat + slice.length.toNat

/-- The subresource is in the view. -/
def TextureView.Denotes {texture : Texture} (view : TextureView texture) (plane mip slice : Nat) :
    Prop :=
  (view.desc.planes view.ignorePlanarMask).getLsbD plane = true ∧
    (view.desc.firstMiplevel.toNat ≤ mip ∧
      mip < view.desc.firstMiplevel.toNat + view.desc.miplevelCount.toNat) ∧
    view.desc.firstArraySlice.toNat ≤ slice ∧
      slice < view.desc.firstArraySlice.toNat + view.desc.arraySize.toNat

/-- The cells that a view is of. -/
def View.Denotes {r : Resource} : View r → Cell → Prop
  | .whole, cell => r.Has cell
  | .slice v, .byte index => v.Denotes index
  | .texture v, .subresource plane mip k => v.Denotes plane mip k
  | _, _ => False

/-- Whatever the bits are that were not written, the order does not matter and the views overlap
exactly if they share a cell. -/
def OverlapExact {r : Resource} (a b : View r) : Prop :=
  ∀ garbage garbage',
    (a.state garbage).overlapWith (b.state garbage') =
        (b.state garbage').overlapWith (a.state garbage) ∧
      ((a.state garbage).overlapWith (b.state garbage') = true ↔
        ∃ cell, a.Denotes cell ∧ b.Denotes cell)

/-! ## Which views can be compared -/

/-- Each of two half-open ranges starts before the other ends. -/
def Meet (start stop start' stop' : Nat) : Prop :=
  start < stop' ∧ start' < stop

namespace Slice

variable {size : Nat} (a b : Slice size)

/-- The byte after the last. -/
def stop : Nat := a.offset.toNat + a.length.toNat

/-- The fields keep all of the slice, and `int` its end. -/
def Fits : Prop := a.stop < 2 ^ 31

/-- One is empty, and inside the other. -/
def EmptyInside : Prop :=
  Meet a.offset.toNat a.stop b.offset.toNat b.stop ∧ (a.length = 0 ∨ b.length = 0)

/-- The slice starts below `2 ^ 31` and is shorter, but does not end below it. The end is no `int`
then, and nothing meets the slice. -/
def Lost : Prop :=
  a.offset.toNat < 2 ^ 31 ∧ a.length.toNat < 2 ^ 31 ∧ 2 ^ 31 ≤ a.stop

/-- What is kept of the slices meets. Of a slice that is not lost the fields keep both ends, less
`2 ^ 31` where an end is not below it. -/
def KeptMeet : Prop :=
  ¬a.Lost ∧ ¬b.Lost ∧
    Meet (a.offset.toNat % 2 ^ 31) (a.stop % 2 ^ 31) (b.offset.toNat % 2 ^ 31) (b.stop % 2 ^ 31)

/-- The slices have a byte in common. -/
def Share : Prop :=
  Meet a.offset.toNat a.stop b.offset.toNat b.stop ∧ a.length ≠ 0 ∧ b.length ≠ 0

/-- Both fit and none is empty inside the other; or what is kept of them says the same as they do.
-/
def Comparable : Prop :=
  (a.Fits ∧ b.Fits → ¬a.EmptyInside b) ∧ (¬(a.Fits ∧ b.Fits) → (a.KeptMeet b ↔ a.Share b))

/-- If the slices have a byte in common, then so has what is kept of them. -/
def Seen : Prop := a.Share b → a.KeptMeet b

end Slice

namespace TextureView

variable {texture : Texture} (v w : TextureView texture)

/-- The mip level after the last, without wrapping. -/
def mipStop : Nat := v.desc.firstMiplevel.toNat + v.desc.miplevelCount.toNat

/-- The array slice after the last, without wrapping. -/
def sliceStop : Nat := v.desc.firstArraySlice.toNat + v.desc.arraySize.toNat

/-- The planes that the view keeps. -/
def planes : BitVec 32 := v.desc.planes v.ignorePlanarMask

/-- The view is kept as bits. -/
def Few : Prop :=
  getPlanarCount v.desc.format * texture.mips * texture.arraySize ≤ 62

/-- One has no mips or no slices, and is inside the other. -/
def EmptyInside : Prop :=
  (∃ plane, v.planes.getLsbD plane = true ∧ w.planes.getLsbD plane = true) ∧
    Meet v.desc.firstMiplevel.toNat v.mipStop w.desc.firstMiplevel.toNat w.mipStop ∧
    Meet v.desc.firstArraySlice.toNat v.sliceStop w.desc.firstArraySlice.toNat w.sliceStop ∧
    (v.desc.miplevelCount = 0 ∨ v.desc.arraySize = 0 ∨ w.desc.miplevelCount = 0 ∨
      w.desc.arraySize = 0)

/-- The views have a subresource in common. -/
def Share : Prop :=
  ∃ plane mip slice, v.Denotes plane mip slice ∧ w.Denotes plane mip slice

/-- Both are kept as bits; or both as ranges, and none is empty inside the other; or they share
nothing. -/
def Comparable : Prop :=
  ((v.Few ↔ w.Few) → ¬v.Few → ¬v.EmptyInside w) ∧ (¬(v.Few ↔ w.Few) → ¬v.Share w)

/-- If the views have a subresource in common, then they are kept in the same way. -/
def Seen : Prop := v.Share w → (v.Few ↔ w.Few)

end TextureView

/-- The whole resource can only be compared with itself. -/
def View.Comparable {r : Resource} : View r → View r → Prop
  | .whole, .whole => True
  | .slice a, .slice b => a.Comparable b
  | .texture v, .texture w => v.Comparable w
  | _, _ => False

/-! ## The fields of a word -/

section Fields

theorem encodedTag_append (x : BitVec 62) (tag : BitVec 2) :
    (⟨x ++ tag⟩ : ResourceSubsetState).encodedTag = tag :=
  BitVec.extractLsb'_append_eq_right

theorem mask_append (x : BitVec 62) (tag : BitVec 2) :
    (⟨x ++ tag⟩ : ResourceSubsetState).mask = x :=
  BitVec.extractLsb'_append_eq_left

theorem encodedTag_whole (garbage : BitVec 62) : (wholeState garbage).encodedTag = 0 :=
  encodedTag_append garbage 0

theorem encodedTag_buffer (o l : BitVec 32) : (bufferState o l).encodedTag = 1 :=
  encodedTag_append _ _

theorem offset_buffer (o l : BitVec 32) : (bufferState o l).offset = o.setWidth 31 := by
  unfold ResourceSubsetState.offset bufferState
  rw [BitVec.extractLsb'_append_eq_of_le (by decide)]
  exact BitVec.extractLsb'_append_eq_right

theorem length_buffer (o l : BitVec 32) : (bufferState o l).length = l.setWidth 31 := by
  unfold ResourceSubsetState.length bufferState
  rw [BitVec.extractLsb'_append_eq_of_le (by decide)]
  exact BitVec.extractLsb'_append_eq_left

variable (desc : TextureViewDescriptor) (ignorePlanarMask : BitVec 32)

/-- A view that is kept as ranges. -/
def rangeState : ResourceSubsetState :=
  ⟨(desc.firstArraySlice + desc.arraySize) ++ (desc.firstMiplevel + desc.miplevelCount) ++
    desc.firstArraySlice ++ desc.firstMiplevel ++ (desc.planes ignorePlanarMask).setWidth 30 ++
      (0b10#2)⟩

theorem encodedTag_range : (rangeState desc ignorePlanarMask).encodedTag = 2 :=
  encodedTag_append _ _

theorem planarMask_range :
    (rangeState desc ignorePlanarMask).planarMask = (desc.planes ignorePlanarMask).setWidth 30 := by
  unfold ResourceSubsetState.planarMask rangeState
  rw [BitVec.extractLsb'_append_eq_of_le (by decide)]
  exact BitVec.extractLsb'_append_eq_right

theorem mipStart_range : (rangeState desc ignorePlanarMask).mipStart = desc.firstMiplevel := by
  unfold ResourceSubsetState.mipStart rangeState
  rw [BitVec.extractLsb'_append_eq_of_le (by decide),
    BitVec.extractLsb'_append_eq_of_le (by decide)]
  exact BitVec.extractLsb'_append_eq_right

theorem arrayStart_range :
    (rangeState desc ignorePlanarMask).arrayStart = desc.firstArraySlice := by
  unfold ResourceSubsetState.arrayStart rangeState
  rw [BitVec.extractLsb'_append_eq_of_le (by decide),
    BitVec.extractLsb'_append_eq_of_le (by decide), BitVec.extractLsb'_append_eq_of_le (by decide)]
  exact BitVec.extractLsb'_append_eq_right

theorem mipEnd_range :
    (rangeState desc ignorePlanarMask).mipEnd = desc.firstMiplevel + desc.miplevelCount := by
  unfold ResourceSubsetState.mipEnd rangeState
  rw [BitVec.extractLsb'_append_eq_of_le (by decide),
    BitVec.extractLsb'_append_eq_of_le (by decide), BitVec.extractLsb'_append_eq_of_le (by decide),
    BitVec.extractLsb'_append_eq_of_le (by decide)]
  exact BitVec.extractLsb'_append_eq_right

theorem arrayEnd_range :
    (rangeState desc ignorePlanarMask).arrayEnd = desc.firstArraySlice + desc.arraySize := by
  unfold ResourceSubsetState.arrayEnd rangeState
  rw [BitVec.extractLsb'_append_eq_of_le (by decide),
    BitVec.extractLsb'_append_eq_of_le (by decide), BitVec.extractLsb'_append_eq_of_le (by decide),
    BitVec.extractLsb'_append_eq_of_le (by decide)]
  exact BitVec.extractLsb'_append_eq_left

end Fields

/-! ## The whole resource -/

/-- A whole resource overlaps everything. -/
theorem overlapWith_of_whole (garbage : BitVec 62) (other : ResourceSubsetState) :
    (wholeState garbage).overlapWith other = true := by
  have htag := encodedTag_whole garbage
  unfold overlapWith
  rw [if_neg fun h => h.1 htag, if_neg (by rw [htag]; decide), if_neg (by rw [htag]; decide),
    if_neg (by rw [htag]; decide)]

/-- A sum of two fields that is no `int` is negative, and nothing is below it. -/
theorem slt_sum_iff (x o l : BitVec 31) :
    (x.setWidth 32).slt (o.setWidth 32 + l.setWidth 32) = true ↔
      o.toNat + l.toNat < 2 ^ 31 ∧ x.toNat < o.toNat + l.toNat := by
  have hx := x.isLt
  have ho := o.isLt
  have hl := l.isLt
  have hleft : (x.setWidth 32).toNat = x.toNat := by
    rw [BitVec.toNat_setWidth]
    omega
  have hright : (o.setWidth 32 + l.setWidth 32).toNat = o.toNat + l.toNat := by
    rw [BitVec.toNat_add, BitVec.toNat_setWidth, BitVec.toNat_setWidth]
    omega
  rw [BitVec.slt, BitVec.toInt_eq_toNat_cond, BitVec.toInt_eq_toNat_cond, hleft, hright,
    decide_eq_true_eq]
  split <;> split <;> omega

/-- Against a whole resource all other bits of which happen to be zero, nothing overlaps. -/
theorem overlapWith_whole_zero {s : ResourceSubsetState} (h : s.encodedTag ≠ 0) :
    s.overlapWith (wholeState 0) = false := by
  have htag := encodedTag_whole 0
  have hoffset : (wholeState 0).offset = 0#31 := by decide
  have hlength : (wholeState 0).length = 0#31 := by decide
  have hmask : (wholeState 0).mask = 0#62 := by decide
  have hplanar : (wholeState 0).planarMask = 0#30 := by decide
  have hbuffer : s.bufferOverlap (wholeState 0) = false := by
    unfold bufferOverlap
    rw [hoffset, hlength, Bool.and_eq_false_iff]
    refine .inl (Bool.eq_false_iff.mpr fun hslt => ?_)
    exact absurd ((slt_sum_iff _ _ _).mp hslt).2 (Nat.not_lt_zero _)
  have hbitmask : s.bitmaskOverlap (wholeState 0) = false := by
    unfold bitmaskOverlap
    rw [hmask, BitVec.and_zero]
    rfl
  have htexture : s.textureOverlap (wholeState 0) = false := by
    unfold textureOverlap
    rw [hplanar, BitVec.and_zero]
    rfl
  have hcases : ∀ tag : BitVec 2, tag ≠ 0 → tag = 1 ∨ tag = 3 ∨ tag = 2 := by decide
  unfold overlapWith
  rw [if_neg fun hdiffer => hdiffer.2.1 htag]
  rcases hcases s.encodedTag h with hone | hthree | htwo
  · rw [if_pos hone, hbuffer]
  · rw [if_neg (by rw [hthree]; decide), if_pos hthree, hbitmask]
  · rw [if_neg (by rw [htwo]; decide), if_neg (by rw [htwo]; decide), if_pos htwo, htexture]

section Whole

variable {r : Resource}

/-- A view with a tag is not compared with the whole resource in the same way from both sides. -/
theorem not_exact_whole {v : View r} (h : ∀ garbage, (v.state garbage).encodedTag ≠ 0) :
    ¬OverlapExact .whole v ∧ ¬OverlapExact v .whole := by
  have hleft : ((View.whole : View r).state 0).overlapWith (v.state 0) = true :=
    overlapWith_of_whole 0 _
  have hright : (v.state 0).overlapWith ((View.whole : View r).state 0) = false :=
    overlapWith_whole_zero (h 0)
  constructor
  · intro hexact
    have hsymm := (hexact 0 0).1
    rw [hleft, hright] at hsymm
    cases hsymm
  · intro hexact
    have hsymm := (hexact 0 0).1
    rw [hleft, hright] at hsymm
    cases hsymm

/-- A resource is not empty. -/
theorem exists_has (r : Resource) : ∃ cell, r.Has cell := by
  cases r with
  | buffer size pos lt => exact ⟨.byte 0, pos⟩
  | texture t => exact ⟨.subresource 0 0 0, t.planes_pos, t.mips_pos, t.arraySize_pos⟩

/-- For two whole resources the check is exact. -/
theorem exact_whole : OverlapExact (.whole : View r) .whole := by
  intro garbage garbage'
  have hleft : ((View.whole : View r).state garbage).overlapWith
      ((View.whole : View r).state garbage') = true :=
    overlapWith_of_whole _ _
  have hright : ((View.whole : View r).state garbage').overlapWith
      ((View.whole : View r).state garbage) = true :=
    overlapWith_of_whole _ _
  obtain ⟨cell, hcell⟩ := exists_has r
  exact ⟨hleft.trans hright.symm, fun _ => ⟨cell, hcell, hcell⟩, fun _ => hleft⟩

end Whole

/-! ## Slices of a buffer -/

/-- Two half-open ranges share a number exactly if they meet and none is empty. -/
theorem exists_common_iff {start len start' len' : Nat} :
    (∃ index, (start ≤ index ∧ index < start + len) ∧ start' ≤ index ∧ index < start' + len') ↔
      Meet start (start + len) start' (start' + len') ∧ 0 < len ∧ 0 < len' := by
  constructor
  · rintro ⟨index, hin, hin'⟩
    refine ⟨⟨?_, ?_⟩, ?_, ?_⟩ <;> omega
  · rintro ⟨⟨hleft, hright⟩, hlen, hlen'⟩
    refine ⟨max start start', ⟨Nat.le_max_left _ _, ?_⟩, Nat.le_max_right _ _, ?_⟩ <;> omega

section Slices

variable {size : Nat} {pos : 0 < size} {lt : size < 2 ^ 32} (a b : Slice size)

/-- The fields and their sum. -/
theorem keptMeet_iff_fields (lt : size < 2 ^ 32) :
    a.KeptMeet b ↔
      a.offset.toNat % 2 ^ 31 + a.length.toNat % 2 ^ 31 < 2 ^ 31 ∧
        b.offset.toNat % 2 ^ 31 + b.length.toNat % 2 ^ 31 < 2 ^ 31 ∧
        Meet (a.offset.toNat % 2 ^ 31) (a.offset.toNat % 2 ^ 31 + a.length.toNat % 2 ^ 31)
          (b.offset.toNat % 2 ^ 31) (b.offset.toNat % 2 ^ 31 + b.length.toNat % 2 ^ 31) := by
  have ha := a.inside.trans_lt lt
  have hb := b.inside.trans_lt lt
  unfold Slice.KeptMeet Slice.Lost Slice.stop Meet
  omega

/-- Two slices overlap where their kept offsets and lengths meet. -/
theorem overlapWith_buffer_iff (lt : size < 2 ^ 32) :
    (bufferState a.offset a.length).overlapWith (bufferState b.offset b.length) = true ↔
      a.KeptMeet b := by
  have htag := encodedTag_buffer a.offset a.length
  have htag' := encodedTag_buffer b.offset b.length
  unfold overlapWith
  rw [if_neg fun hdiffer => hdiffer.2.2 (htag.trans htag'.symm), if_pos htag]
  unfold bufferOverlap
  rw [Bool.and_eq_true, offset_buffer, length_buffer, offset_buffer, length_buffer, slt_sum_iff,
    slt_sum_iff, BitVec.toNat_setWidth, BitVec.toNat_setWidth, BitVec.toNat_setWidth,
    BitVec.toNat_setWidth, keptMeet_iff_fields a b lt]
  unfold Meet
  constructor
  · rintro ⟨⟨hstop', hleft⟩, hstop, hright⟩
    exact ⟨hstop, hstop', hleft, hright⟩
  · rintro ⟨hstop, hstop', hleft, hright⟩
    exact ⟨⟨hstop', hleft⟩, hstop, hright⟩

theorem keptMeet_comm : a.KeptMeet b ↔ b.KeptMeet a := by
  unfold Slice.KeptMeet Meet
  constructor
  · rintro ⟨hkept, hkept', hleft, hright⟩
    exact ⟨hkept', hkept, hright, hleft⟩
  · rintro ⟨hkept', hkept, hright, hleft⟩
    exact ⟨hkept, hkept', hleft, hright⟩

/-- The fields of slices that fit are the slices. -/
theorem keptMeet_of_fits (h : a.Fits ∧ b.Fits) :
    a.KeptMeet b ↔ Meet a.offset.toNat a.stop b.offset.toNat b.stop := by
  obtain ⟨ha, hb⟩ := h
  unfold Slice.Fits at ha hb
  have hoffset : a.offset.toNat ≤ a.stop := Nat.le_add_right _ _
  have hoffset' : b.offset.toNat ≤ b.stop := Nat.le_add_right _ _
  unfold Slice.KeptMeet Slice.Lost
  rw [Nat.mod_eq_of_lt (hoffset.trans_lt ha), Nat.mod_eq_of_lt ha,
    Nat.mod_eq_of_lt (hoffset'.trans_lt hb), Nat.mod_eq_of_lt hb]
  exact ⟨fun h => h.2.2, fun h =>
    ⟨fun hlost => absurd ha (Nat.not_lt.mpr hlost.2.2),
      fun hlost => absurd hb (Nat.not_lt.mpr hlost.2.2), h⟩⟩

theorem pos_iff_ne_zero {w : Nat} (x : BitVec w) : 0 < x.toNat ↔ x ≠ 0 := by
  rw [Nat.pos_iff_ne_zero, ne_eq, ne_eq, ← BitVec.toNat_inj]
  rfl

/-- Two slices share a byte where neither is empty and each starts before the other stops. -/
theorem exists_byte_iff : (∃ index, a.Denotes index ∧ b.Denotes index) ↔ a.Share b := by
  unfold Slice.Share
  rw [← pos_iff_ne_zero, ← pos_iff_ne_zero]
  exact exists_common_iff

/-- What both slices say of each other is what they share, exactly if they are comparable. -/
theorem keptMeet_iff_comparable : (a.KeptMeet b ↔ a.Share b) ↔ a.Comparable b := by
  unfold Slice.Comparable
  by_cases hfits : a.Fits ∧ b.Fits
  · rw [keptMeet_of_fits a b hfits]
    unfold Slice.EmptyInside Slice.Share
    constructor
    · intro hexact
      refine ⟨fun _ => ?_, fun hnot => absurd hfits hnot⟩
      rintro ⟨hmeet, hempty⟩
      obtain ⟨-, ha, hb⟩ := hexact.mp hmeet
      exact hempty.elim ha hb
    · rintro ⟨hinside, -⟩
      have hinside := hinside hfits
      refine ⟨fun hmeet => ⟨hmeet, fun ha => ?_, fun hb => ?_⟩, fun h => h.1⟩
      · exact hinside ⟨hmeet, .inl ha⟩
      · exact hinside ⟨hmeet, .inr hb⟩
  · exact ⟨fun hexact => ⟨fun hboth => absurd hboth hfits, fun _ => hexact⟩, fun h => h.2 hfits⟩

theorem exists_cell_slice_iff :
    (∃ cell, (View.slice a : View (.buffer size pos lt)).Denotes cell ∧
      (View.slice b : View (.buffer size pos lt)).Denotes cell) ↔ a.Share b := by
  rw [← exists_byte_iff]
  constructor
  · rintro ⟨cell, ha, hb⟩
    cases cell with
    | byte index => exact ⟨index, ha, hb⟩
    | subresource plane mip slice => exact ha.elim
  · rintro ⟨index, ha, hb⟩
    exact ⟨.byte index, ha, hb⟩

/-- For two slices the check is exact where it has not lost what matters. -/
theorem exact_slice_iff :
    OverlapExact (.slice a : View (.buffer size pos lt)) (.slice b) ↔ a.Comparable b := by
  have hsymm : (bufferState a.offset a.length).overlapWith (bufferState b.offset b.length) =
      (bufferState b.offset b.length).overlapWith (bufferState a.offset a.length) := by
    rw [Bool.eq_iff_iff, overlapWith_buffer_iff a b lt, overlapWith_buffer_iff b a lt,
      keptMeet_comm]
  rw [← keptMeet_iff_comparable, ← overlapWith_buffer_iff a b lt,
    ← @exists_cell_slice_iff size pos lt a b]
  exact ⟨fun hexact => (hexact 0 0).2, fun hexact _ _ => ⟨hsymm, hexact⟩⟩

end Slices

/-! ## The bits of a view -/

section Bits

/-- Steps that each set the bits of a set set the bits of their union. -/
theorem getLsbD_foldl {α : Type} {w i : Nat} {g : BitVec w → α → BitVec w} {S : α → Prop}
    (h : ∀ bits x, (g bits x).getLsbD i = true ↔ bits.getLsbD i = true ∨ S x) (l : List α)
    (bits : BitVec w) :
    (l.foldl g bits).getLsbD i = true ↔ bits.getLsbD i = true ∨ ∃ x ∈ l, S x := by
  induction l generalizing bits with
  | nil => simp only [List.foldl_nil, List.not_mem_nil, false_and, exists_false, or_false]
  | cons x l ih =>
    rw [List.foldl_cons, ih, h]
    simp only [List.mem_cons, exists_eq_or_imp, or_assoc]

/-- Two words meet where they have a bit in common. -/
theorem and_ne_zero_iff {w : Nat} (x y : BitVec w) :
    (x &&& y != 0) = true ↔ ∃ i, x.getLsbD i = true ∧ y.getLsbD i = true := by
  rw [bne_iff_ne]
  constructor
  · intro hne
    by_contra hnone
    refine hne (BitVec.eq_of_getLsbD_eq fun i _ => ?_)
    rw [BitVec.getLsbD_and]
    by_cases hx : x.getLsbD i = true
    · have hy : y.getLsbD i = false := Bool.eq_false_iff.mpr fun hy => hnone ⟨i, hx, hy⟩
      rw [hy, Bool.and_false]
      exact (BitVec.getLsbD_zero ..).symm
    · rw [Bool.eq_false_iff.mpr hx, Bool.false_and]
      exact (BitVec.getLsbD_zero ..).symm
  · rintro ⟨i, hx, hy⟩ hzero
    have hbit := congrArg (BitVec.getLsbD · i) hzero
    simp only [BitVec.getLsbD_and, hx, hy, Bool.and_self] at hbit
    exact Bool.noConfusion (hbit.trans (BitVec.getLsbD_zero ..))

theorem one_shl_and_ne_zero (planar : Nat) (hplanar : planar < 32) (planarMask : BitVec 32) :
    (1#32 <<< planar) &&& planarMask ≠ 0 ↔ planarMask.getLsbD planar = true := by
  rw [← bne_iff_ne, and_ne_zero_iff]
  constructor
  · rintro ⟨i, hone, hmask⟩
    rw [BitVec.getLsbD_shiftLeft] at hone
    simp only [Bool.and_eq_true, decide_eq_true_eq, Bool.not_eq_true', decide_eq_false_iff_not,
      not_lt, BitVec.getLsbD_one] at hone
    have hi : i = planar := by omega
    exact hi ▸ hmask
  · intro hmask
    refine ⟨planar, ?_, hmask⟩
    rw [BitVec.getLsbD_shiftLeft]
    simp only [Bool.and_eq_true, decide_eq_true_eq, Bool.not_eq_true', decide_eq_false_iff_not,
      not_lt, BitVec.getLsbD_one]
    omega

theorem getLsbD_or_one_shl {i n : Nat} (hi : i < 64) (bits : BitVec 64) :
    (bits ||| (1#64 <<< n)).getLsbD i = true ↔ bits.getLsbD i = true ∨ n = i := by
  rw [BitVec.getLsbD_or, Bool.or_eq_true, BitVec.getLsbD_shiftLeft]
  simp only [Bool.and_eq_true, decide_eq_true_eq, Bool.not_eq_true', decide_eq_false_iff_not,
    not_lt, BitVec.getLsbD_one]
  refine or_congr_right ⟨fun h => ?_, fun h => ?_⟩ <;> omega

variable {desc : TextureViewDescriptor} {totalMipCount totalArraySize i : Nat}
    {planarMask : BitVec 32}

/-- The bits that are set are those of the levels, slices and planes of the view. -/
theorem getLsbD_bits (hi : i < 64) :
    (desc.bits totalMipCount totalArraySize planarMask).getLsbD i = true ↔
      ∃ planar ∈ List.range (getPlanarCount desc.format),
        ∃ slice ∈ List.range' desc.firstArraySlice.toNat desc.arraySize.toNat,
          ∃ level ∈ List.range' desc.firstMiplevel.toNat desc.miplevelCount.toNat,
            (1#32 <<< planar) &&& planarMask ≠ 0 ∧
              TextureViewDescriptor.bitIndex totalMipCount totalArraySize planar slice
                level = i := by
  have hlevel : ∀ planar slice (bits : BitVec 64) level,
      (if (1#32 <<< planar) &&& planarMask ≠ 0 then
        bits ||| (1#64 <<< TextureViewDescriptor.bitIndex totalMipCount totalArraySize planar
          slice level)
      else bits).getLsbD i = true ↔ bits.getLsbD i = true ∨ ((1#32 <<< planar) &&& planarMask ≠ 0 ∧
        TextureViewDescriptor.bitIndex totalMipCount totalArraySize planar slice level = i) := by
    intro planar slice bits level
    by_cases hplane : (1#32 <<< planar) &&& planarMask ≠ 0
    · rw [if_pos hplane, getLsbD_or_one_shl hi]
      exact or_congr_right ⟨fun h => ⟨hplane, h⟩, fun h => h.2⟩
    · rw [if_neg hplane]
      exact ⟨.inl, fun h => h.elim id fun h => absurd h.1 hplane⟩
  unfold TextureViewDescriptor.bits
  rw [getLsbD_foldl fun bits planar => getLsbD_foldl (fun bits slice =>
    getLsbD_foldl (hlevel planar slice) _ bits) _ bits]
  constructor
  · rintro (hzero | h)
    · rw [BitVec.getLsbD_zero] at hzero
      cases hzero
    · exact h
  · exact .inr

end Bits

/-! ## Views that are kept as bits -/

theorem getPlanarCount_le (format : WMTPixelFormat) : getPlanarCount format ≤ 2 := by
  cases format <;> decide

theorem getPlanarMask_lt (format : WMTPixelFormat) :
    (getPlanarMask format).toNat < 2 ^ getPlanarCount format := by
  cases format <;> decide

/-- The planes of a view are among those of its format. -/
theorem lt_of_getLsbD_planes {desc : TextureViewDescriptor} {ignorePlanarMask : BitVec 32}
    {plane : Nat} (h : (desc.planes ignorePlanarMask).getLsbD plane = true) :
    plane < getPlanarCount desc.format := by
  by_contra hge
  unfold TextureViewDescriptor.planes at h
  rw [BitVec.getLsbD_and, Bool.and_eq_true] at h
  have hlt : (getPlanarMask desc.format).toNat < 2 ^ plane :=
    Nat.lt_of_lt_of_le (getPlanarMask_lt desc.format) (Nat.pow_le_pow_right (by decide)
      (Nat.le_of_not_lt hge))
  have hbit : (getPlanarMask desc.format).toNat.testBit plane = true := h.1
  rw [Nat.testBit_lt_two_pow hlt] at hbit
  cases hbit

open MixedRadix in
/-- A subresource has one number. -/
theorem number_inj {m s a b c a' b' c' : Nat} (ha : a < m) (hb : b < s) (ha' : a' < m)
    (hb' : b' < s) (h : number m s a b c = number m s a' b' c') : a = a' ∧ b = b' ∧ c = c' := by
  have hmod := congrArg (· % (m * s)) h
  have hdiv := congrArg (· / (m * s)) h
  simp only [number_mod ha hb, number_mod ha' hb', number_div ha hb, number_div ha' hb']
      at hmod hdiv
  have hlow := congrArg (· % m) hmod
  have hhigh := congrArg (· / m) hmod
  simp only [pair_mod ha, pair_mod ha', pair_div ha, pair_div ha'] at hlow hhigh
  exact ⟨hlow, hhigh, hdiv⟩

section Texture

open MixedRadix

variable {texture : Texture} {v w : TextureView texture} {plane mip slice i : Nat}

/-- The product fits in 32 bits. -/
theorem product_lt (texture : Texture) {planes : Nat} (h : planes ≤ 2) :
    planes * texture.mips * texture.arraySize < 2 ^ 32 := by
  have hmips := texture.mips_le
  have harray := texture.arraySize_lt
  have hpages : planes * texture.mips ≤ 2 * 15 := Nat.mul_le_mul h hmips
  have hall : planes * texture.mips * texture.arraySize ≤ 2 * 15 * 2 ^ 12 :=
    Nat.mul_le_mul hpages (Nat.le_of_lt harray)
  omega

theorem total_eq (v : TextureView texture) : v.desc.total texture.mips texture.arraySize =
    getPlanarCount v.desc.format * texture.mips * texture.arraySize :=
  TextureCopy.u32_of_lt (product_lt texture (getPlanarCount_le v.desc.format))

theorem denotes_lt (h : v.Denotes plane mip slice) :
    plane < getPlanarCount v.desc.format ∧ mip < texture.mips ∧ slice < texture.arraySize := by
  obtain ⟨hplane, ⟨-, hmip⟩, -, hslice⟩ := h
  exact ⟨lt_of_getLsbD_planes hplane, Nat.lt_of_lt_of_le hmip v.mips_le,
    Nat.lt_of_lt_of_le hslice v.slices_le⟩

theorem number_lt_total (hplane : plane < getPlanarCount v.desc.format) (hmip : mip < texture.mips)
    (hslice : slice < texture.arraySize) : number texture.mips texture.arraySize mip slice plane <
      getPlanarCount v.desc.format * texture.mips * texture.arraySize := by
  have hlt := number_lt hmip hslice hplane
  rw [Nat.mul_comm, ← Nat.mul_assoc] at hlt
  exact hlt

/-- A bit is the number of its subresource. -/
theorem bitIndex_eq (hplane : plane < getPlanarCount v.desc.format) (hmip : mip < texture.mips)
    (hslice : slice < texture.arraySize) :
    TextureViewDescriptor.bitIndex texture.mips texture.arraySize plane slice mip =
      number texture.mips texture.arraySize mip slice plane := by
  have hnumber : plane * texture.arraySize * texture.mips + slice * texture.mips + mip =
      number texture.mips texture.arraySize mip slice plane := by
    unfold number
    ring
  unfold TextureViewDescriptor.bitIndex
  rw [hnumber]
  exact TextureCopy.u32_of_lt (Nat.lt_trans (number_lt_total hplane hmip hslice)
    (product_lt texture (getPlanarCount_le v.desc.format)))

/-- The mask that the view keeps where it keeps one. -/
def TextureView.bits (v : TextureView texture) : BitVec 62 :=
  (v.desc.bits texture.mips texture.arraySize v.planes).setWidth 62

/-- **The bits of a view** are the numbers of what it denotes. -/
theorem getLsbD_view_bits (hfew : v.Few) :
    v.bits.getLsbD i = true ↔
      ∃ plane mip slice, v.Denotes plane mip slice ∧
        number texture.mips texture.arraySize mip slice plane = i := by
  unfold TextureView.bits
  rw [BitVec.getLsbD_setWidth, Bool.and_eq_true, decide_eq_true_eq]
  constructor
  · rintro ⟨hi, hbit⟩
    obtain ⟨plane, hplane, slice, hslice, mip, hmip, hmask, hindex⟩ :=
        (getLsbD_bits (by omega)).mp hbit
    rw [List.mem_range] at hplane
    rw [List.mem_range'_1] at hslice hmip
    have hcount := getPlanarCount_le v.desc.format
    have hmips := v.mips_le
    have hslices := v.slices_le
    rw [@bitIndex_eq texture v plane mip slice hplane (by omega) (by omega)] at hindex
    exact ⟨plane, mip, slice, ⟨(one_shl_and_ne_zero plane (by omega) _).mp hmask, hmip, hslice⟩,
        hindex⟩
  · rintro ⟨plane, mip, slice, hdenotes, rfl⟩
    obtain ⟨hplane, hmip, hslice⟩ := denotes_lt hdenotes
    have hlt := number_lt_total hplane hmip hslice
    have hcount := getPlanarCount_le v.desc.format
    unfold TextureView.Few at hfew
    refine ⟨by omega, (getLsbD_bits (by omega)).mpr ?_⟩
    refine ⟨plane, List.mem_range.mpr hplane, slice, List.mem_range'_1.mpr hdenotes.2.2, mip,
      List.mem_range'_1.mpr hdenotes.2.1, ?_, bitIndex_eq hplane hmip hslice⟩
    exact (one_shl_and_ne_zero plane (by omega) _).mpr hdenotes.1

/-- Two masks meet where the views share a subresource. -/
theorem bits_meet_iff (hv : v.Few) (hw : w.Few) :
    (v.bits &&& w.bits != 0) = true ↔
      ∃ plane mip slice, v.Denotes plane mip slice ∧ w.Denotes plane mip slice := by
  rw [and_ne_zero_iff]
  constructor
  · rintro ⟨i, hleft, hright⟩
    obtain ⟨plane, mip, slice, hdenotes, rfl⟩ := (getLsbD_view_bits hv).mp hleft
    obtain ⟨plane', mip', slice', hdenotes', heq⟩ := (getLsbD_view_bits hw).mp hright
    obtain ⟨-, hmip, hslice⟩ := denotes_lt hdenotes
    obtain ⟨-, hmip', hslice'⟩ := denotes_lt hdenotes'
    obtain ⟨rfl, rfl, rfl⟩ := number_inj hmip' hslice' hmip hslice heq
    exact ⟨plane', mip', slice', hdenotes, hdenotes'⟩
  · rintro ⟨plane, mip, slice, hdenotes, hdenotes'⟩
    exact ⟨_, (getLsbD_view_bits hv).mpr ⟨plane, mip, slice, hdenotes, rfl⟩,
      (getLsbD_view_bits hw).mpr ⟨plane, mip, slice, hdenotes', rfl⟩⟩

/-! ## Views that are kept as ranges -/

theorem toNat_mipEnd (v : TextureView texture) :
    (v.desc.firstMiplevel + v.desc.miplevelCount).toNat = v.mipStop := by
  have hmips := v.mips_le
  have hle := texture.mips_le
  rw [BitVec.toNat_add]
  exact Nat.mod_eq_of_lt (by omega)

theorem toNat_arrayEnd (v : TextureView texture) :
    (v.desc.firstArraySlice + v.desc.arraySize).toNat = v.sliceStop := by
  have hslices := v.slices_le
  have hlt := texture.arraySize_lt
  rw [BitVec.toNat_add]
  exact Nat.mod_eq_of_lt (by omega)

theorem planes_meet_iff (v w : TextureView texture) :
    (v.planes.setWidth 30 &&& w.planes.setWidth 30 != 0) = true ↔
      ∃ plane, v.planes.getLsbD plane = true ∧ w.planes.getLsbD plane = true := by
  rw [and_ne_zero_iff]
  refine exists_congr fun plane => ?_
  rw [BitVec.getLsbD_setWidth, BitVec.getLsbD_setWidth, Bool.and_eq_true, Bool.and_eq_true,
    decide_eq_true_eq]
  constructor
  · rintro ⟨⟨-, hv⟩, -, hw⟩
    exact ⟨hv, hw⟩
  · rintro ⟨hv, hw⟩
    have hlt := lt_of_getLsbD_planes hv
    have hcount := getPlanarCount_le v.desc.format
    exact ⟨⟨by omega, hv⟩, by omega, hw⟩

/-- The ranges of the views meet, and the planes. -/
def TextureView.RangesMeet (v w : TextureView texture) : Prop :=
  (∃ plane, v.planes.getLsbD plane = true ∧ w.planes.getLsbD plane = true) ∧
    Meet v.desc.firstMiplevel.toNat v.mipStop w.desc.firstMiplevel.toNat w.mipStop ∧
    Meet v.desc.firstArraySlice.toNat v.sliceStop w.desc.firstArraySlice.toNat w.sliceStop

/-- Two boxes meet where their kept planes, mips and slices do. -/
theorem textureOverlap_range (v w : TextureView texture) :
    (rangeState v.desc v.ignorePlanarMask).textureOverlap
    (rangeState w.desc w.ignorePlanarMask) = true ↔
      v.RangesMeet w := by
  have hplanes := planes_meet_iff v w
  unfold TextureView.planes at hplanes
  unfold textureOverlap TextureView.RangesMeet TextureView.planes Meet
  rw [planarMask_range, planarMask_range, mipStart_range, mipStart_range, mipEnd_range,
    mipEnd_range, arrayStart_range, arrayStart_range, arrayEnd_range, arrayEnd_range]
  simp only [Bool.and_eq_true, decide_eq_true_eq, hplanes, BitVec.lt_def, toNat_mipEnd,
    toNat_arrayEnd]
  constructor
  · rintro ⟨⟨⟨⟨hplane, hmip⟩, hmip'⟩, hslice⟩, hslice'⟩
    exact ⟨hplane, ⟨hmip, hmip'⟩, hslice, hslice'⟩
  · rintro ⟨hplane, ⟨hmip, hmip'⟩, hslice, hslice'⟩
    exact ⟨⟨⟨⟨hplane, hmip⟩, hmip'⟩, hslice⟩, hslice'⟩

/-- Views share a subresource exactly if their ranges meet and none of them is empty. -/
theorem exists_subresource_iff (v w : TextureView texture) :
    v.Share w ↔ v.RangesMeet w ∧ ¬v.EmptyInside w := by
  have hmips := @exists_common_iff v.desc.firstMiplevel.toNat v.desc.miplevelCount.toNat
    w.desc.firstMiplevel.toNat w.desc.miplevelCount.toNat
  have hslices := @exists_common_iff v.desc.firstArraySlice.toNat v.desc.arraySize.toNat
    w.desc.firstArraySlice.toNat w.desc.arraySize.toNat
  simp only [pos_iff_ne_zero] at hmips hslices
  constructor
  · rintro ⟨plane, mip, slice, ⟨hplane, hmip, hslice⟩, hplane', hmip', hslice'⟩
    obtain ⟨hmeet, hv, hw⟩ := hmips.mp ⟨mip, hmip, hmip'⟩
    obtain ⟨hmeet', hv', hw'⟩ := hslices.mp ⟨slice, hslice, hslice'⟩
    refine ⟨⟨⟨plane, hplane, hplane'⟩, hmeet, hmeet'⟩, ?_⟩
    rintro ⟨-, -, -, hempty⟩
    rcases hempty with hempty | hempty | hempty | hempty
    · exact hv hempty
    · exact hv' hempty
    · exact hw hempty
    · exact hw' hempty
  · rintro ⟨⟨⟨plane, hplane, hplane'⟩, hmeet, hmeet'⟩, hinside⟩
    have hnone := fun hempty => hinside ⟨⟨plane, hplane, hplane'⟩, hmeet, hmeet', hempty⟩
    obtain ⟨mip, hmip, hmip'⟩ :=
      hmips.mpr ⟨hmeet, fun h => hnone (.inl h), fun h => hnone (.inr (.inr (.inl h)))⟩
    obtain ⟨slice, hslice, hslice'⟩ :=
      hslices.mpr ⟨hmeet', fun h => hnone (.inr (.inl h)), fun h => hnone (.inr (.inr (.inr h)))⟩
    exact ⟨plane, mip, slice, ⟨hplane, hmip, hslice⟩, hplane', hmip', hslice'⟩

/-! ## Exactness -/

/-- The word of a view. -/
def TextureView.state (v : TextureView texture) : ResourceSubsetState :=
  textureState v.desc texture.mips texture.arraySize v.ignorePlanarMask

theorem state_of_few (h : v.Few) : v.state = ⟨v.bits ++ (0b11#2)⟩ := by
  unfold TextureView.Few at h
  unfold TextureView.state textureState
  rw [total_eq, if_pos h]
  rfl

theorem state_of_not_few (h : ¬v.Few) : v.state = rangeState v.desc v.ignorePlanarMask := by
  unfold TextureView.Few at h
  unfold TextureView.state textureState
  rw [total_eq, if_neg h]
  rfl

theorem encodedTag_of_few (h : v.Few) : v.state.encodedTag = 3 := by
  rw [state_of_few h]
  exact encodedTag_append _ _

theorem encodedTag_of_not_few (h : ¬v.Few) : v.state.encodedTag = 2 := by
  rw [state_of_not_few h]
  exact encodedTag_range _ _

theorem encodedTag_ne_zero (v : TextureView texture) : v.state.encodedTag ≠ 0 := by
  by_cases h : v.Few
  · rw [encodedTag_of_few h]
    decide
  · rw [encodedTag_of_not_few h]
    decide

/-- With few subresources the check is exact. -/
theorem overlapWith_of_few (hv : v.Few) (hw : w.Few) :
    v.state.overlapWith w.state = true ↔ v.Share w := by
  have htag := encodedTag_of_few hv
  have htag' := encodedTag_of_few hw
  unfold TextureView.Share
  rw [← bits_meet_iff hv hw]
  unfold overlapWith
  rw [if_neg fun hdiffer => hdiffer.2.2 (htag.trans htag'.symm), if_neg (by rw [htag]; decide),
    if_pos htag]
  unfold bitmaskOverlap
  rw [state_of_few hv, state_of_few hw, mask_append, mask_append]

/-- With many subresources the check compares boxes. -/
theorem overlapWith_of_not_few (hv : ¬v.Few) (hw : ¬w.Few) :
    v.state.overlapWith w.state = true ↔ v.RangesMeet w := by
  have htag := encodedTag_of_not_few hv
  have htag' := encodedTag_of_not_few hw
  rw [← textureOverlap_range]
  unfold overlapWith
  rw [if_neg fun hdiffer => hdiffer.2.2 (htag.trans htag'.symm), if_neg (by rw [htag]; decide),
    if_neg (by rw [htag]; decide), if_pos htag, state_of_not_few hv, state_of_not_few hw]

/-- Views that are kept differently do not overlap. -/
theorem overlapWith_of_differ (h : ¬(v.Few ↔ w.Few)) : v.state.overlapWith w.state = false := by
  have htags : v.state.encodedTag ≠ w.state.encodedTag := by
    by_cases hv : v.Few
    · have hw : ¬w.Few := fun hw => h ⟨fun _ => hw, fun _ => hv⟩
      rw [encodedTag_of_few hv, encodedTag_of_not_few hw]
      decide
    · have hw : w.Few := by
        by_contra hw
        exact h ⟨fun hfew => absurd hfew hv, fun hfew => absurd hfew hw⟩
      rw [encodedTag_of_not_few hv, encodedTag_of_few hw]
      decide
  unfold overlapWith
  rw [if_pos ⟨encodedTag_ne_zero v, encodedTag_ne_zero w, htags⟩]

theorem rangesMeet_comm (v w : TextureView texture) : v.RangesMeet w → w.RangesMeet v := by
  rintro ⟨⟨plane, hplane, hplane'⟩, ⟨hmip, hmip'⟩, hslice, hslice'⟩
  exact ⟨⟨plane, hplane', hplane⟩, ⟨hmip', hmip⟩, hslice', hslice⟩

/-- The check does not depend on the order. -/
theorem overlapWith_comm (v w : TextureView texture) :
    v.state.overlapWith w.state = w.state.overlapWith v.state := by
  by_cases hsame : v.Few ↔ w.Few
  · by_cases hv : v.Few
    · have hw := hsame.mp hv
      rw [Bool.eq_iff_iff, overlapWith_of_few hv hw, overlapWith_of_few hw hv]
      refine exists_congr fun plane => exists_congr fun mip => exists_congr fun slice => ?_
      exact and_comm
    · have hw : ¬w.Few := fun hw => hv (hsame.mpr hw)
      rw [Bool.eq_iff_iff, overlapWith_of_not_few hv hw, overlapWith_of_not_few hw hv]
      exact ⟨rangesMeet_comm v w, rangesMeet_comm w v⟩
  · rw [overlapWith_of_differ hsame, overlapWith_of_differ fun h => hsame h.symm]

/-- What both views say of each other is what they share, exactly if they are comparable. -/
theorem overlapWith_iff_comparable (v w : TextureView texture) :
    (v.state.overlapWith w.state = true ↔ v.Share w) ↔ v.Comparable w := by
  unfold TextureView.Comparable
  by_cases hsame : v.Few ↔ w.Few
  · by_cases hv : v.Few
    · rw [overlapWith_of_few hv (hsame.mp hv)]
      exact ⟨fun _ => ⟨fun _ hnot => absurd hv hnot, fun hdiffer => absurd hsame hdiffer⟩,
          fun _ => Iff.rfl⟩
    · rw [overlapWith_of_not_few hv fun hw => hv (hsame.mpr hw), exists_subresource_iff]
      constructor
      · intro hexact
        refine ⟨fun _ _ hinside => ?_, fun hdiffer => absurd hsame hdiffer⟩
        exact (hexact.mp ⟨hinside.1, hinside.2.1, hinside.2.2.1⟩).2 hinside
      · rintro ⟨hinside, -⟩
        exact ⟨fun hmeet => ⟨hmeet, hinside hsame hv⟩, fun h => h.1⟩
  · rw [overlapWith_of_differ hsame]
    constructor
    · intro hexact
      exact ⟨fun hboth => absurd hboth hsame, fun _ hshared =>
          Bool.noConfusion (hexact.mpr hshared)⟩
    · rintro ⟨-, hnone⟩
      exact ⟨fun hfalse => Bool.noConfusion hfalse, fun hshared => absurd hshared (hnone hsame)⟩

theorem exists_cell_texture_iff (v w : TextureView texture) :
    (∃ cell, (View.texture v).Denotes cell ∧ (View.texture w).Denotes cell) ↔ v.Share w := by
  constructor
  · rintro ⟨cell, hv, hw⟩
    cases cell with
    | byte index => exact hv.elim
    | subresource plane mip slice => exact ⟨plane, mip, slice, hv, hw⟩
  · rintro ⟨plane, mip, slice, hv, hw⟩
    exact ⟨.subresource plane mip slice, hv, hw⟩

/-- For two texture views the check is exact where the views are comparable. -/
theorem exact_texture_iff (v w : TextureView texture) :
    OverlapExact (.texture v) (.texture w) ↔ v.Comparable w := by
  rw [← overlapWith_iff_comparable, ← exists_cell_texture_iff]
  exact ⟨fun hexact => (hexact 0 0).2, fun hexact _ _ => ⟨overlapWith_comm v w, hexact⟩⟩

end Texture

/-- **`overlapWith` is symmetric and exact** for two views of a resource exactly if they are
comparable. -/
theorem overlapExact_iff {r : Resource} (a b : View r) : OverlapExact a b ↔ a.Comparable b := by
  have hslice : ∀ {size : Nat} {pos : 0 < size} {lt : size < 2 ^ 32} (s : Slice size)
      (garbage : BitVec 62),
      ((View.slice s : View (.buffer size pos lt)).state garbage).encodedTag ≠ 0 := by
    intro size pos lt s garbage htag
    have hone : ((View.slice s : View (.buffer size pos lt)).state garbage).encodedTag = 1 :=
      encodedTag_buffer s.offset s.length
    exact absurd (hone.symm.trans htag) (by decide)
  have htexture : ∀ {t : Texture} (v : TextureView t) (garbage : BitVec 62),
      ((View.texture v).state garbage).encodedTag ≠ 0 := fun v _ => encodedTag_ne_zero v
  cases a with
  | whole =>
    cases b with
    | whole => exact ⟨fun _ => trivial, fun _ => exact_whole⟩
    | slice b => exact ⟨fun h => (not_exact_whole (hslice b)).1 h, fun h => h.elim⟩
    | texture w => exact ⟨fun h => (not_exact_whole (htexture w)).1 h, fun h => h.elim⟩
  | slice a =>
    cases b with
    | whole => exact ⟨fun h => (not_exact_whole (hslice a)).2 h, fun h => h.elim⟩
    | slice b => exact exact_slice_iff a b
  | texture v =>
    cases b with
    | whole => exact ⟨fun h => (not_exact_whole (htexture v)).2 h, fun h => h.elim⟩
    | texture w => exact exact_texture_iff v w

/-- The slice of all of a buffer of two gibibytes. -/
def fullSlice : Slice (2 ^ 31) where
  offset := 0
  length := 0x80000000#32
  inside := by decide

/-- Its length does not fit in its field, so the slice does not even overlap with itself. -/
theorem not_exact_fullSlice :
    ¬OverlapExact (.slice fullSlice : View (.buffer (2 ^ 31) (by decide) (by decide)))
      (.slice fullSlice) := by
  intro hexact
  have hoverlap := (hexact 0 0).2.mpr ⟨.byte 0, ⟨by decide, by decide⟩, by decide, by decide⟩
  have hnone : (bufferState 0 0x80000000#32).overlapWith (bufferState 0 0x80000000#32) = false :=
    by decide
  exact Bool.noConfusion (hnone.symm.trans hoverlap)

/-- A texture of two planes with so many slices that its views are kept as bits only in a format of
one plane. -/
def planarTexture : Texture where
  mips := 1
  arraySize := 40
  planes := 2
  mips_pos := by decide
  mips_le := by decide
  arraySize_pos := by decide
  arraySize_lt := by decide
  planes_pos := by decide

/-- The view of the first slice in a format. -/
def firstSlice (format : WMTPixelFormat) : TextureView planarTexture where
  desc := ⟨format, 0, 1, 0, 1⟩
  ignorePlanarMask := 0
  mips_le := show (0#4).toNat + (1#4).toNat ≤ 1 by decide
  slices_le := show (0#12).toNat + (1#12).toNat ≤ 40 by decide
  planes_le := by cases format <;> decide

/-- Views of the same subresource that are kept differently do not overlap. -/
theorem not_exact_planes :
    ¬OverlapExact (.texture (firstSlice .other)) (.texture (firstSlice .depth32FloatStencil8)) := by
  intro hexact
  have hfew : (firstSlice .other).Few := show getPlanarCount .other * 1 * 40 ≤ 62 by decide
  have hmany : ¬(firstSlice .depth32FloatStencil8).Few :=
    show ¬getPlanarCount .depth32FloatStencil8 * 1 * 40 ≤ 62 by decide
  have hoverlap := (hexact 0 0).2.mpr
    ⟨.subresource 0 0 0, ⟨by decide, by decide, by decide⟩, by decide, by decide, by decide⟩
  have hnone := overlapWith_of_differ fun hsame => hmany (hsame.mp hfew)
  exact Bool.noConfusion (hnone.symm.trans hoverlap)

/-! ## Parts of a resource -/

/-- What a view is of that is not of the whole resource. -/
def Part : Resource → Type
  | .buffer size _ _ => Slice size
  | .texture texture => TextureView texture

namespace Part

variable {r : Resource}

instance : DecidableEq (Part r) :=
  match r with
  | .buffer size _ _ => inferInstanceAs (DecidableEq (Slice size))
  | .texture texture => inferInstanceAs (DecidableEq (TextureView texture))

/-- The view of the resource that the part stands for. -/
def view : {r : Resource} → Part r → View r
  | .buffer _ _ _, slice => .slice slice
  | .texture _, view => .texture view

/-- The word of a part. The constructors of parts write all of it. -/
def state (part : Part r) : ResourceSubsetState := part.view.state 0

/-- The cells that a part is of. -/
def Denotes (part : Part r) (cell : Cell) : Prop := part.view.Denotes cell

/-- `overlapWith` does not miss a cell that the parts have in common. -/
def Seen : {r : Resource} → Part r → Part r → Prop
  | .buffer size _ _, a, b => @Slice.Seen size a b
  | .texture texture, v, w => @TextureView.Seen texture v w

/-- A shared cell is seen where the check says so. -/
theorem seen_iff (p q : Part r) :
    p.Seen q ↔
      ((∃ cell, p.Denotes cell ∧ q.Denotes cell) → p.state.overlapWith q.state = true) := by
  cases r with
  | buffer size pos lt =>
    have hcells := @exists_cell_slice_iff size pos lt p q
    have hkept := overlapWith_buffer_iff p q lt
    exact ⟨fun hseen hshared => hkept.mpr (hseen (hcells.mp hshared)),
      fun hseen hshare => hkept.mp (hseen (hcells.mpr hshare))⟩
  | texture texture =>
    have hcells := exists_cell_texture_iff p q
    constructor
    · intro hseen hshared
      have hshare := hcells.mp hshared
      by_cases hfew : @TextureView.Few texture p
      · exact (overlapWith_of_few hfew ((hseen hshare).mp hfew)).mpr hshare
      · refine (overlapWith_of_not_few hfew fun hw => hfew ((hseen hshare).mpr hw)).mpr ?_
        exact ((exists_subresource_iff p q).mp hshare).1
    · intro hseen hshare
      by_contra hdiffer
      exact Bool.noConfusion
        ((overlapWith_of_differ hdiffer).symm.trans (hseen (hcells.mpr hshare)))

theorem overlapWith_comm (p q : Part r) :
    p.state.overlapWith q.state = q.state.overlapWith p.state := by
  cases r with
  | buffer size pos lt =>
    have hleft := @overlapWith_buffer_iff size p q lt
    have hright := @overlapWith_buffer_iff size q p lt
    exact Bool.eq_iff_iff.mpr (hleft.trans ((keptMeet_comm p q).trans hright.symm))
  | texture texture => exact @SubresourceOverlap.overlapWith_comm texture p q

end Part

end SubresourceOverlap

end Dxmt
