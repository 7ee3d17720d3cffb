import Mathlib.Algebra.Order.Ring.Nat
import Mathlib.Tactic.Ring
import Dxmt.TextureCopy

/-!
# Subresources

A subresource of a texture is a plane, a slice and a mip. `d3d12_resource.cpp` and
`d3d12_command_queue.cpp` each take an index apart on their own; here both are compared on the
description that a resource keeps, where `MipLevels = 0` has become the number of all mips.

Headlines:
* **`decomposes_iff`**: both agree and number the subresources without gaps exactly when the
  description names no more mips than the texture is made with. Against the mips that it names,
  exactly when the number of subresources fits in 32 bits.
* **`moreMips_out_of_range`**: creation accepts more mips than there are, and the index of one that
  does not exist is below the count.
-/

namespace Dxmt

/-! ## Numbering triples -/

namespace MixedRadix

variable {m s p a b c i : Nat}

/-- The number of the triple `(a, b, c)`, the first counting up to `m` and the second up to `s`. -/
def number (m s a b c : Nat) : Nat := a + b * m + c * (m * s)

theorem pair_lt (ha : a < m) (hb : b < s) : a + b * m < m * s := by
  have hnext : (b + 1) * m ≤ s * m := Nat.mul_le_mul_right m hb
  rw [Nat.succ_mul, Nat.mul_comm s] at hnext
  omega

/-- The number within its plane. -/
theorem number_mod (ha : a < m) (hb : b < s) : number m s a b c % (m * s) = a + b * m := by
  rw [number, Nat.add_mul_mod_self_right, Nat.mod_eq_of_lt (pair_lt ha hb)]

/-- The plane of a number. -/
theorem number_div (ha : a < m) (hb : b < s) : number m s a b c / (m * s) = c := by
  have hpair := pair_lt ha hb
  rw [number, Nat.add_mul_div_right _ _ (by omega), Nat.div_eq_of_lt hpair, Nat.zero_add]

theorem pair_mod (ha : a < m) : (a + b * m) % m = a := by
  rw [Nat.add_mul_mod_self_right, Nat.mod_eq_of_lt ha]

theorem pair_div (ha : a < m) : (a + b * m) / m = b := by
  rw [Nat.add_mul_div_right _ _ (by omega), Nat.div_eq_of_lt ha, Nat.zero_add]

/-- A number has its three coordinates. -/
theorem number_digits (m s i : Nat) :
    number m s (i % (m * s) % m) (i % (m * s) / m) (i / (m * s)) = i := by
  rw [number, Nat.mod_add_div', Nat.mod_add_div']

/-- Coordinates in range give a number in range. -/
theorem number_lt (ha : a < m) (hb : b < s) (hc : c < p) : number m s a b c < m * s * p := by
  rw [number]
  exact pair_lt (pair_lt ha hb) hc

end MixedRadix

namespace Subresources

open TextureCopy MixedRadix

/-! ## The resource -/

/-- The description a resource keeps. -/
def storedDesc (desc : ResourceDesc) : ResourceDesc :=
  if desc.dimension ≠ .buffer ∧ desc.mipLevels = 0 then
    { desc with mipLevels := BitVec.ofNat 16 (getMaxMipLevels desc) }
  else desc

/-- `GetTextureSubresourceArraySlice`: a 3D texture has one. -/
def getTextureSubresourceArraySlice (desc : ResourceDesc) (subResource : Nat) : Nat :=
  if desc.dimension = .texture3D then 0
  else getTextureSubresourcePlaneLocalIndex desc subResource / getMipLevels desc

/-- The mips `CreateTexture` asks for. -/
def mipmapLevelCount (desc : ResourceDesc) : Nat :=
  min (getMipLevels desc) (getMaxMipLevels desc)

/-! ## The command queue -/

namespace Queue

/-- The mip levels of the description; the queue counts a zero as one. -/
def mipLevels (desc : ResourceDesc) : Nat :=
  if desc.mipLevels ≠ 0 then desc.mipLevels.toNat else 1

/-- `DepthOrArraySize` counts slices, or it is the depth. -/
def arraySize (desc : ResourceDesc) : Nat :=
  if desc.dimension = .texture3D then 1 else desc.depthOrArraySize.toNat

/-- `GetPlaneCount`. -/
def getPlaneCount (desc : ResourceDesc) (traits : FormatTraits) : Nat :=
  if desc.dimension = .buffer then 1
  else if traits.planeCount ≠ 0 then traits.planeCount else 1

/-- `GetSubresourceCount`. -/
def getSubresourceCount (desc : ResourceDesc) (traits : FormatTraits) : Nat :=
  if desc.dimension = .buffer then 1
  else u32 (u32 (mipLevels desc * arraySize desc) * getPlaneCount desc traits)

/-- The subresources of one plane. -/
def baseCount (desc : ResourceDesc) : Nat := u32 (mipLevels desc * arraySize desc)

/-- `GetSubresourcePlane`. -/
def getSubresourcePlane (desc : ResourceDesc) (traits : FormatTraits) (subresource : Nat) : Nat :=
  if getPlaneCount desc traits ≤ 1 then 0
  else if baseCount desc ≠ 0 then subresource / baseCount desc else 0

/-- The index within the plane. -/
def getSubresourceIndex (desc : ResourceDesc) (traits : FormatTraits) (subresource : Nat) : Nat :=
  if getPlaneCount desc traits ≤ 1 then subresource else subresource % baseCount desc

/-- `GetMipLevel`. -/
def getMipLevel (desc : ResourceDesc) (traits : FormatTraits) (subresource : Nat) : Nat :=
  if mipLevels desc ≠ 0 then getSubresourceIndex desc traits subresource % mipLevels desc else 0

/-- `GetArraySlice`. -/
def getArraySlice (desc : ResourceDesc) (traits : FormatTraits) (subresource : Nat) : Nat :=
  if desc.dimension = .texture3D then 0
  else getSubresourceIndex desc traits subresource / mipLevels desc

end Queue

/-! ## Agreement -/

/-- A row of the table of formats, which has two planes at most. -/
structure TableTraits extends FormatTraits where
  planeCount_le : planeCount ≤ 2

/-- Both decompositions of the description `desc` that is kept for one given with `mips` mips are
the same, and one to one with the planes, slices and the mips below `levels`. -/
structure Decomposes (desc : ResourceDesc) (traits : FormatTraits) (mips levels : Nat) : Prop where
  count : getTextureSubresourceCount desc traits = Queue.getSubresourceCount desc traits
  plane : ∀ i < getTextureSubresourceCount desc traits,
    getTextureSubresourcePlane desc i = Queue.getSubresourcePlane desc traits i
  mip : ∀ i < getTextureSubresourceCount desc traits,
    getTextureSubresourceMipLevel desc i = Queue.getMipLevel desc traits i
  slice : ∀ i < getTextureSubresourceCount desc traits,
    getTextureSubresourceArraySlice desc i = Queue.getArraySlice desc traits i
  index : ∀ i < getTextureSubresourceCount desc traits,
    i = getTextureSubresourceMipLevel desc i + getTextureSubresourceArraySlice desc i * mips +
      getTextureSubresourcePlane desc i * (mips * Queue.arraySize desc)
  range : ∀ i < getTextureSubresourceCount desc traits,
    getTextureSubresourcePlane desc i < getTextureLogicalPlaneCount traits ∧
    getTextureSubresourceMipLevel desc i < levels ∧
    getTextureSubresourceArraySlice desc i < Queue.arraySize desc
  hit : ∀ plane < getTextureLogicalPlaneCount traits, ∀ level < levels, ∀ slice <
    Queue.arraySize desc,
    ∃! i, i < getTextureSubresourceCount desc traits ∧ getTextureSubresourcePlane desc i = plane ∧
      getTextureSubresourceMipLevel desc i = level ∧ getTextureSubresourceArraySlice desc i = slice

/-- A texture that creation accepts. -/
structure Accepted (desc : ResourceDesc) (traits : FormatTraits) : Prop where
  supported : isSupportedResourceDesc desc traits = true
  texture : desc.dimension ≠ .buffer

variable {desc : ResourceDesc} {traits : FormatTraits} {mips levels i : Nat}

theorem countMipLevels_le (fuel width height depth levels : Nat) :
    countMipLevels fuel width height depth levels ≤ levels + fuel ∧
      levels ≤ countMipLevels fuel width height depth levels := by
  induction fuel generalizing width height depth levels with
  | zero => simp [countMipLevels]
  | succ fuel ih =>
    rw [countMipLevels]
    split
    · obtain ⟨hle, hge⟩ := ih (max 1 (width >>> 1)) (max 1 (height >>> 1)) (max 1 (depth >>> 1))
        (levels + 1)
      constructor <;> omega
    · constructor <;> omega

/-- No texture has more than 65 mip levels. -/
theorem getMaxMipLevels_bounds (desc : ResourceDesc) :
    1 ≤ getMaxMipLevels desc ∧ getMaxMipLevels desc ≤ 65 := by
  unfold getMaxMipLevels
  split
  · decide
  · exact (countMipLevels_le _ _ _ _ _).symm

/-- What is known of a description that a texture keeps. -/
structure Kept (desc : ResourceDesc) : Prop where
  texture : desc.dimension ≠ .buffer
  mips : desc.mipLevels ≠ 0
  slices : desc.depthOrArraySize ≠ 0

theorem Accepted.slices (h : Accepted desc traits) : desc.depthOrArraySize ≠ 0 := by
  have hsupported := h.supported
  intro hzero
  simp [isSupportedResourceDesc, hzero] at hsupported

theorem toNat_maxMips (desc : ResourceDesc) :
    (BitVec.ofNat 16 (getMaxMipLevels desc)).toNat = getMaxMipLevels desc := by
  obtain ⟨-, hle⟩ := getMaxMipLevels_bounds desc
  rw [BitVec.toNat_ofNat, Nat.mod_eq_of_lt (by omega)]

theorem maxMips_ne_zero (desc : ResourceDesc) : BitVec.ofNat 16 (getMaxMipLevels desc) ≠ 0 := by
  intro hzero
  have htoNat := toNat_maxMips desc
  obtain ⟨hpos, -⟩ := getMaxMipLevels_bounds desc
  rw [hzero] at htoNat
  simp only [BitVec.ofNat_eq_ofNat, BitVec.toNat_ofNat, Nat.zero_mod] at htoNat
  omega

/-- An accepted description is stored with its mip levels counted. -/
theorem Accepted.kept (h : Accepted desc traits) : Kept (storedDesc desc) := by
  unfold storedDesc
  split
  · exact ⟨h.texture, maxMips_ne_zero desc, h.slices⟩
  · next hkeep =>
    exact ⟨h.texture, fun hzero => hkeep ⟨h.texture, hzero⟩, h.slices⟩

/-- The mips that are counted are those that the given description names. -/
theorem getMipLevels_storedDesc (desc : ResourceDesc) :
    getMipLevels (storedDesc desc) = getMipLevels desc := by
  unfold storedDesc
  split
  · next hall =>
    rw [getMipLevels, if_pos (maxMips_ne_zero desc), getMipLevels, if_neg (not_not.mpr hall.2)]
    exact toNat_maxMips desc
  · rfl

theorem getMaxMipLevels_storedDesc (desc : ResourceDesc) :
    getMaxMipLevels (storedDesc desc) = getMaxMipLevels desc := by
  unfold storedDesc
  split <;> rfl

theorem arraySize_storedDesc (desc : ResourceDesc) :
    Queue.arraySize (storedDesc desc) = Queue.arraySize desc := by
  unfold storedDesc
  split <;> rfl

/-! ## The digits of an index -/

namespace Kept

variable (h : Kept desc)

include h

theorem queueMips : Queue.mipLevels desc = getMipLevels desc := by
  rw [Queue.mipLevels, if_pos h.mips, getMipLevels, if_pos h.mips]

theorem mips_bounds : 0 < getMipLevels desc ∧ getMipLevels desc < 2 ^ 16 := by
  rw [getMipLevels, if_pos h.mips]
  refine ⟨?_, desc.mipLevels.isLt⟩
  exact Nat.pos_of_ne_zero fun hzero => h.mips (BitVec.eq_of_toNat_eq (by simpa using hzero))

theorem slices_bounds : 0 < Queue.arraySize desc ∧ Queue.arraySize desc < 2 ^ 16 := by
  unfold Queue.arraySize
  split
  · decide
  · refine ⟨?_, desc.depthOrArraySize.isLt⟩
    exact Nat.pos_of_ne_zero fun hzero => h.slices (BitVec.eq_of_toNat_eq (by simpa using hzero))

/-- The subresources of a plane fit 32 bits. -/
theorem plane_lt : getMipLevels desc * Queue.arraySize desc < 2 ^ 32 := by
  have hmips := h.mips_bounds.2
  have hslices := h.slices_bounds.2
  calc getMipLevels desc * Queue.arraySize desc < 2 ^ 16 * 2 ^ 16 :=
        Nat.mul_lt_mul'' hmips hslices
    _ = 2 ^ 32 := by decide

theorem plane_pos : 0 < getMipLevels desc * Queue.arraySize desc :=
  Nat.mul_pos h.mips_bounds.1 h.slices_bounds.1

/-- The resource code counts the subresources of a plane. -/
theorem perPlane : getTextureSubresourcesPerPlane desc = getMipLevels desc * Queue.arraySize desc :=
  u32_of_lt h.plane_lt

/-- The queue counts the subresources of a plane. -/
theorem baseCount : Queue.baseCount desc = getMipLevels desc * Queue.arraySize desc := by
  rw [Queue.baseCount, h.queueMips, u32_of_lt h.plane_lt]

theorem planeCount (traits : FormatTraits) :
    Queue.getPlaneCount desc traits = getTextureLogicalPlaneCount traits := by
  rw [Queue.getPlaneCount, if_neg h.texture, getTextureLogicalPlaneCount]
  split <;> omega

/-- The resource code counts the subresources. -/
theorem count (traits : FormatTraits) :
    getTextureSubresourceCount desc traits =
      u32 (getMipLevels desc * Queue.arraySize desc * getTextureLogicalPlaneCount traits) := by
  rw [getTextureSubresourceCount, h.perPlane]

theorem lt_total (hi : i < getTextureSubresourceCount desc traits) :
    i < getMipLevels desc * Queue.arraySize desc * getTextureLogicalPlaneCount traits := by
  rw [h.count] at hi
  exact lt_of_lt_of_le hi (Nat.mod_le _ _)

theorem plane_eq (i : Nat) :
    getTextureSubresourcePlane desc i = i / (getMipLevels desc * Queue.arraySize desc) := by
  rw [getTextureSubresourcePlane, h.perPlane, if_neg h.plane_pos.ne']

theorem local_eq (i : Nat) :
    getTextureSubresourcePlaneLocalIndex desc i =
      i % (getMipLevels desc * Queue.arraySize desc) := by
  rw [getTextureSubresourcePlaneLocalIndex, h.perPlane, if_neg h.plane_pos.ne']

theorem mip_eq (i : Nat) :
    getTextureSubresourceMipLevel desc i =
      i % (getMipLevels desc * Queue.arraySize desc) % getMipLevels desc := by
  rw [getTextureSubresourceMipLevel, h.local_eq]

theorem slice_lt (i : Nat) :
    i % (getMipLevels desc * Queue.arraySize desc) / getMipLevels desc < Queue.arraySize desc :=
  Nat.div_lt_of_lt_mul (Nat.mod_lt _ h.plane_pos)

/-- The one slice of a three-dimensional texture is 0. -/
theorem slice_eq (i : Nat) :
    getTextureSubresourceArraySlice desc i =
      i % (getMipLevels desc * Queue.arraySize desc) / getMipLevels desc := by
  rw [getTextureSubresourceArraySlice]
  split
  · next hvolume =>
    have hlt := h.slice_lt i
    have hone : Queue.arraySize desc = 1 := if_pos hvolume
    exact (Nat.lt_one_iff.mp (hlt.trans_eq hone)).symm
  · rw [h.local_eq]

/-- The index the queue goes on with is the one inside the plane. -/
theorem queueIndex (hi : i < getTextureSubresourceCount desc traits) :
    Queue.getSubresourceIndex desc traits i = i % (getMipLevels desc * Queue.arraySize desc) := by
  have htotal := h.lt_total hi
  rw [Queue.getSubresourceIndex, h.planeCount, h.baseCount]
  split
  · next hone =>
    have hplanes : getTextureLogicalPlaneCount traits = 1 := by
      have : 1 ≤ getTextureLogicalPlaneCount traits := Nat.le_max_left 1 _
      omega
    rw [hplanes, Nat.mul_one] at htotal
    rw [Nat.mod_eq_of_lt htotal]
  · rfl

/-- The queue finds the plane. -/
theorem queuePlane (hi : i < getTextureSubresourceCount desc traits) :
    Queue.getSubresourcePlane desc traits i = i / (getMipLevels desc * Queue.arraySize desc) := by
  have htotal := h.lt_total hi
  rw [Queue.getSubresourcePlane, h.planeCount, h.baseCount, if_pos h.plane_pos.ne']
  split
  · next hone =>
    have hplanes : getTextureLogicalPlaneCount traits = 1 := by
      have : 1 ≤ getTextureLogicalPlaneCount traits := Nat.le_max_left 1 _
      omega
    rw [hplanes, Nat.mul_one] at htotal
    rw [Nat.div_eq_of_lt htotal]
  · rfl

/-- The queue finds the mip level. -/
theorem queueMip (hi : i < getTextureSubresourceCount desc traits) :
    Queue.getMipLevel desc traits i =
      i % (getMipLevels desc * Queue.arraySize desc) % getMipLevels desc := by
  rw [Queue.getMipLevel, h.queueMips, if_pos h.mips_bounds.1.ne', h.queueIndex hi]

/-- The queue finds the array slice. -/
theorem queueSlice (hi : i < getTextureSubresourceCount desc traits) :
    Queue.getArraySlice desc traits i =
      i % (getMipLevels desc * Queue.arraySize desc) / getMipLevels desc := by
  rw [← h.slice_eq, Queue.getArraySlice, getTextureSubresourceArraySlice, h.queueMips,
    h.queueIndex hi, h.local_eq]

end Kept

/-! ## One to one -/

/-- The last subresource has the last number. -/
theorem number_last (hm : 0 < mips) {slices planes : Nat} (hs : 0 < slices) (hp : 0 < planes) :
    number mips slices (mips - 1) (slices - 1) (planes - 1) + 1 = mips * slices * planes := by
  obtain ⟨m, rfl⟩ := Nat.exists_eq_succ_of_ne_zero hm.ne'
  obtain ⟨s, rfl⟩ := Nat.exists_eq_succ_of_ne_zero hs.ne'
  obtain ⟨p, rfl⟩ := Nat.exists_eq_succ_of_ne_zero hp.ne'
  simp only [number, Nat.succ_eq_add_one, Nat.add_sub_cancel]
  ring

/-- A subresource is the number of its coordinates. -/
theorem Kept.index_eq (h : Kept desc) (i : Nat) :
    number (getMipLevels desc) (Queue.arraySize desc) (getTextureSubresourceMipLevel desc i)
      (getTextureSubresourceArraySlice desc i) (getTextureSubresourcePlane desc i) = i := by
  rw [h.mip_eq, h.slice_eq, h.plane_eq, number_digits]

/-- When the count does not wrap around, every triple has its index. -/
theorem Kept.decomposes (h : Kept desc)
    (htotal : getMipLevels desc * Queue.arraySize desc * getTextureLogicalPlaneCount traits <
      2 ^ 32) :
    Decomposes desc traits (getMipLevels desc) (getMipLevels desc) := by
  have hcount : getTextureSubresourceCount desc traits =
      getMipLevels desc * Queue.arraySize desc * getTextureLogicalPlaneCount traits := by
    rw [h.count, u32_of_lt htotal]
  refine ⟨?_, fun i hi => ?_, fun i hi => ?_, fun i hi => ?_, fun i _ => (h.index_eq i).symm,
    fun i hi => ⟨?_, ?_, ?_⟩, fun plane hplane level hlevel slice hslice => ?_⟩
  · rw [h.count, Queue.getSubresourceCount, if_neg h.texture, h.queueMips, u32_of_lt h.plane_lt,
      h.planeCount]
  · rw [h.plane_eq, h.queuePlane hi]
  · rw [h.mip_eq, h.queueMip hi]
  · rw [h.slice_eq, h.queueSlice hi]
  · rw [h.plane_eq]
    exact Nat.div_lt_of_lt_mul (h.lt_total hi)
  · rw [h.mip_eq]
    exact Nat.mod_lt _ h.mips_bounds.1
  · rw [h.slice_eq]
    exact h.slice_lt i
  · refine ⟨number (getMipLevels desc) (Queue.arraySize desc) level slice plane, ⟨?_, ?_, ?_, ?_⟩,
      ?_⟩
    · rw [hcount]
      exact number_lt hlevel hslice hplane
    · rw [h.plane_eq, number_div hlevel hslice]
    · rw [h.mip_eq, number_mod hlevel hslice, pair_mod hlevel]
    · rw [h.slice_eq, number_mod hlevel hslice, pair_div hlevel]
    · rintro i ⟨-, rfl, rfl, rfl⟩
      exact (h.index_eq i).symm

/-- The last triple that exists has an index of 32 bits, so the count has not wrapped around. -/
theorem Decomposes.total_lt (h : Kept desc) (hplanes : traits.planeCount ≤ 2) (hlevels : 0 < levels)
    (hd : Decomposes desc traits (getMipLevels desc) levels) :
    getMipLevels desc * Queue.arraySize desc * getTextureLogicalPlaneCount traits < 2 ^ 32 := by
  have hplane : 0 < getTextureLogicalPlaneCount traits :=
    Nat.lt_of_lt_of_le Nat.one_pos (Nat.le_max_left 1 _)
  have htwo : getTextureLogicalPlaneCount traits ≤ 2 := Nat.max_le.mpr ⟨by omega, hplanes⟩
  obtain ⟨hmip, hmip'⟩ := h.mips_bounds
  have hslice := h.slices_bounds.1
  obtain ⟨i, ⟨hi, hplaneEq, hmipEq, hsliceEq⟩, -⟩ :=
    hd.hit (getTextureLogicalPlaneCount traits - 1) (by omega) (levels - 1) (by omega)
      (Queue.arraySize desc - 1) (by omega)
  have hindex := h.index_eq i
  rw [hplaneEq, hmipEq, hsliceEq] at hindex
  have hlast := number_last hmip hslice hplane
  rw [h.count, u32] at hi
  simp only [number] at hindex hlast
  by_contra hwrap
  have hbound := h.plane_lt
  have hdouble : getMipLevels desc * Queue.arraySize desc * getTextureLogicalPlaneCount traits ≤
      getMipLevels desc * Queue.arraySize desc * 2 := Nat.mul_le_mul_left _ htwo
  omega

/-- The first mip that does not exist is reached. -/
theorem Decomposes.mips_le (h : Kept desc)
    (htotal : getMipLevels desc * Queue.arraySize desc * getTextureLogicalPlaneCount traits <
      2 ^ 32)
    (hd : Decomposes desc traits (getMipLevels desc) levels) : getMipLevels desc ≤ levels := by
  by_contra hmore
  have hplane : 0 < getTextureLogicalPlaneCount traits :=
    Nat.lt_of_lt_of_le Nat.one_pos (Nat.le_max_left 1 _)
  have hall := (h.decomposes htotal).hit 0 hplane levels (by omega) 0 h.slices_bounds.1
  obtain ⟨i, ⟨hi, -, hmip, -⟩, -⟩ := hall
  have hrange := (hd.range i hi).2.1
  omega

/-- The decompositions of a texture fit the mips that it is made with exactly when the description
names no more, and they fit the mips that it names exactly when the subresources can be counted in
32 bits. -/
theorem decomposes_iff (desc : ResourceDesc) (traits : TableTraits)
    (h : Accepted desc traits.toFormatTraits) :
    (Decomposes (storedDesc desc) traits.toFormatTraits (getMipLevels desc)
        (mipmapLevelCount (storedDesc desc)) ↔ getMipLevels desc ≤ getMaxMipLevels desc) ∧
    (Decomposes (storedDesc desc) traits.toFormatTraits (getMipLevels desc) (getMipLevels desc) ↔
      getMipLevels desc * Queue.arraySize desc * getTextureLogicalPlaneCount
        traits.toFormatTraits < 2 ^ 32) := by
  have hkept := h.kept
  obtain ⟨hmax, hmax'⟩ := getMaxMipLevels_bounds desc
  have hmips := hkept.mips_bounds
  have hslices := hkept.slices_bounds
  rw [mipmapLevelCount, ← getMipLevels_storedDesc desc, ← getMaxMipLevels_storedDesc desc,
    ← arraySize_storedDesc desc]
  rw [← getMaxMipLevels_storedDesc desc] at hmax hmax'
  refine ⟨⟨fun hd => ?_, fun hle => ?_⟩, fun hd => ?_, hkept.decomposes⟩
  · have htotal := hd.total_lt hkept traits.planeCount_le (by omega)
    have hmore := hd.mips_le hkept htotal
    omega
  · rw [Nat.min_eq_left hle]
    refine hkept.decomposes ?_
    have htwo : getTextureLogicalPlaneCount traits.toFormatTraits ≤ 2 :=
      Nat.max_le.mpr ⟨by omega, traits.planeCount_le⟩
    calc _ ≤ 65 * 2 ^ 16 * 2 :=
          Nat.mul_le_mul (Nat.mul_le_mul (by omega) hslices.2.le) htwo
      _ < 2 ^ 32 := by decide
  · exact hd.total_lt hkept traits.planeCount_le hmips.1

theorem rgba32Float_planeCount_le : Transfer.rgba32Float.planeCount ≤ 2 := by decide

/-- A colour format of one plane. -/
def colorTraits : TableTraits where
  toFormatTraits := Transfer.rgba32Float
  planeCount_le := rgba32Float_planeCount_le

/-- Slices of 4 by 4 texels. -/
def slicesOfFour (slices mipLevels : BitVec 16) : ResourceDesc where
  dimension := .texture2D
  width := 4
  height := 4
  depthOrArraySize := slices
  mipLevels
  sampleCount := 1
  sampleQuality := 0
  layout := .unknown

/-- Three slices with all the mips. -/
theorem decomposes_allMips :
    Decomposes (storedDesc (slicesOfFour 3 0)) colorTraits.toFormatTraits 3 3 :=
  (decomposes_iff (slicesOfFour 3 0) colorTraits ⟨by decide, by decide⟩).1.mpr (by decide)

/-- Four mips are accepted and three are made, and the index 3, which both decompositions give the
mip 3, is below both counts. -/
theorem moreMips_out_of_range :
    Accepted (slicesOfFour 1 4) colorTraits.toFormatTraits ∧
    ¬Decomposes (storedDesc (slicesOfFour 1 4)) colorTraits.toFormatTraits
      (getMipLevels (slicesOfFour 1 4))
      (mipmapLevelCount (storedDesc (slicesOfFour 1 4))) := by
  refine ⟨⟨by decide, by decide⟩, fun hd => ?_⟩
  have hcount : 3 < getTextureSubresourceCount
      (storedDesc (slicesOfFour 1 4)) colorTraits.toFormatTraits := by
    decide
  have hrange := (hd.range 3 hcount).2.1
  have hmip : getTextureSubresourceMipLevel (storedDesc (slicesOfFour 1 4)) 3 = 3 := by decide
  have hlevels : mipmapLevelCount (storedDesc (slicesOfFour 1 4)) = 3 := by decide
  omega

end Subresources

end Dxmt
