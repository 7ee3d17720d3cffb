import Dxmt.CopyRegion

/-!
# Copies of the named region

What a record says is the copy of its region from cell to cell. The queue replaces the size of a
footprint by the one of the subresource, and takes a box, an origin in the source, for the origin on
both sides.
-/

namespace Dxmt

namespace CopyRegion

open TextureCopy Subresources GridCopy

variable {query : FormatQuery}

/-! ## The two sides of a copy -/

/-- A subresource of a texture. -/
structure Subresource (query : FormatQuery) where
  resource : TextureResource query
  index : Nat
  lt : index < getTextureSubresourceCount resource.desc (planeTraits resource.format)

namespace Subresource

variable (s : Subresource query)

/-- The plane of the subresource. -/
def plane : Nat := getTextureSubresourcePlane s.resource.desc s.index

/-- The mip level of the subresource. -/
def mip : Nat := getTextureSubresourceMipLevel s.resource.desc s.index

/-- The array slice of the subresource. -/
def slice : Nat := getTextureSubresourceArraySlice s.resource.desc s.index

/-- The Metal texture that holds the plane. -/
def backing : Nat := getTextureBackingPlaneIndex s.resource.format s.plane

/-- The formats of the plane. -/
def planeTraits : DXGIFormatPlaneTraits := (getDXGIFormatTraits s.resource.format).planes s.plane

/-- How the plane's texture is divided into cells. -/
def cells : CellFormat := (s.resource.textures s.backing).cells s.planeTraits.elementSize

/-- The texels of a level of a plane. -/
def extent : Index where
  x := max 1 (s.resource.desc.width.toNat >>> (s.mip + s.planeTraits.subsampleXLog2))
  y := if s.resource.desc.dimension = .texture1D then 1
    else max 1 (s.resource.desc.height.toNat >>> (s.mip + s.planeTraits.subsampleYLog2))
  z := if s.resource.desc.dimension = .texture3D then
    max 1 (s.resource.desc.depthOrArraySize.toNat >>> s.mip)
    else 1

/-- A plane is a texture of its own, or an aspect of the one texture. -/
def aspect : Nat := if hasTwoAspects s.resource.format then s.plane else 0

/-- A cell of the subresource. -/
def cell (site : Index) : Cell := .texel s.backing s.aspect s.mip s.slice site

/-- The subresource as one side of a copy. -/
def location : StoredTextureCopyLocation query := subresourceLocation (.texture s.resource) s.index

end Subresource

/-- A footprint placed in a buffer. -/
structure PlacedFootprint where
  buffer : BufferResource
  footprint : Footprint
  aligned : footprint.rowPitch.toNat % 256 = 0
  rowPitch_pos : 0 < footprint.rowPitch.toNat
  offset_lt : buffer.heapOffset.toNat + footprint.offset.toNat < 2 ^ 64
  height_lt : footprint.height.toNat + 3 < 2 ^ 32

namespace PlacedFootprint

variable (p : PlacedFootprint)

/-- The cells of the footprint's own format. -/
def cells (query : FormatQuery) : Option CellFormat :=
  (query p.footprint.format).map fun desc =>
    desc.cells ((getDXGIFormatTraits p.footprint.format).planes 0).elementSize

/-- The extent of the footprint in texels. -/
def extent : Index :=
  ⟨p.footprint.width.toNat, p.footprint.height.toNat, p.footprint.depth.toNat⟩

/-- Rows of blocks of the footprint. -/
def rows (c : CellFormat) : Nat :=
  max 1 ((p.footprint.height.toNat + c.block - 1) / c.block)

/-- Bytes of one slice of the footprint. -/
def slicePitch (c : CellFormat) : Nat := p.footprint.rowPitch.toNat * p.rows c

/-- Where the footprint starts in the heap. -/
def start : Nat := p.buffer.heapOffset.toNat + p.footprint.offset.toNat

/-- A cell of the footprint: bytes of the buffer. -/
def cell (c : CellFormat) (site : Index) : Cell :=
  .byte (p.start + rowMajor c.bytes p.footprint.rowPitch.toNat (p.slicePitch c) site)

/-- The footprint as one side of a copy. -/
def location (query : FormatQuery) : StoredTextureCopyLocation query where
  resource := .buffer p.buffer
  type := .placedFootprint
  placedFootprint := p.footprint
  subresourceIndex := 0

end PlacedFootprint

/-- A box inside a source of extent `whole`, whose last blocks may be partial. -/
structure BoxInside (block : Nat) (whole : Index) (box : Box) : Prop where
  left_le : box.left.toNat ≤ box.right.toNat
  top_le : box.top.toNat ≤ box.bottom.toNat
  front_le : box.front.toNat ≤ box.back.toNat
  right_le : box.right.toNat ≤ (whole.x + block - 1) / block * block
  bottom_le : box.bottom.toNat ≤ (whole.y + block - 1) / block * block
  back_le : box.back.toNat ≤ whole.z

/-- Where the region of a source starts. -/
def sourceOrigin (box : Option Box) : Index := box.elim 0 boxOrigin

/-- The extent of the region of a source. -/
def sourceSize (whole : Index) : Option Box → Index
  | some box =>
    ⟨box.right.toNat - box.left.toNat, box.bottom.toNat - box.top.toNat,
      box.back.toNat - box.front.toNat⟩
  | none => whole

/-- The destination offset of a record. -/
structure Offset where
  x : Word
  y : Word
  z : Word

/-- The offset as a place. -/
def Offset.index (o : Offset) : Index := ⟨o.x.toNat, o.y.toNat, o.z.toNat⟩

/-- The copies an application records. -/
inductive Copy (query : FormatQuery)
  | textureToTexture (dst src : Subresource query) (offset : Offset) (box : Option Box)
      (inside : ∀ b ∈ box, BoxInside src.cells.block src.extent b)
  | footprintToTexture (dst : Subresource query) (src : PlacedFootprint) (offset : Offset)
      (box : Option Box)
      (inside : ∀ b ∈ box, BoxInside dst.cells.block src.extent b)
      (cells : src.cells query = some dst.cells)
  | textureToFootprint (dst : PlacedFootprint) (src : Subresource query) (offset : Offset)
      (box : Option Box)
      (inside : ∀ b ∈ box, BoxInside src.cells.block src.extent b)
      (cells : dst.cells query = some src.cells)
  | textureResource (dst src : TextureResource query) (desc : dst.desc = src.desc)
      (format : dst.format = src.format)
      (allowDepthStencil : dst.allowDepthStencil = src.allowDepthStencil)
  | bufferResource (dst src : BufferResource) (width : dst.width = src.width)

namespace Copy

/-- The commands of a copy. -/
def commands : Copy query → List Command
  | textureToTexture dst src offset box _ =>
    CopyTextureRegionRecord.replayCopyTextureRegion
      ⟨dst.location, offset.x, offset.y, offset.z, src.location, box⟩
  | footprintToTexture dst src offset box _ _ =>
    CopyTextureRegionRecord.replayCopyTextureRegion
      ⟨dst.location, offset.x, offset.y, offset.z, src.location query, box⟩
  | textureToFootprint dst src offset box _ _ =>
    CopyTextureRegionRecord.replayCopyTextureRegion
      ⟨dst.location query, offset.x, offset.y, offset.z, src.location, box⟩
  | textureResource dst src _ _ _ => replayCopyResource (.texture dst) (.texture src)
  | bufferResource dst src _ => replayCopyResource (.buffer dst : Resource query) (.buffer src)

/-- The copy that a record names. -/
def named : Copy query → Set (Cell × Cell)
  | textureToTexture dst src offset box _ =>
    copies (src.cells.extent (sourceSize src.extent box))
      (fun d => dst.cell (dst.cells.index offset.index + d))
      (fun d => src.cell (src.cells.index (sourceOrigin box) + d))
  | footprintToTexture dst src offset box _ _ =>
    copies (dst.cells.extent (sourceSize src.extent box))
      (fun d => dst.cell (dst.cells.index offset.index + d))
      (fun d => src.cell dst.cells (dst.cells.index (sourceOrigin box) + d))
  | textureToFootprint dst src offset box _ _ =>
    copies (src.cells.extent (sourceSize src.extent box))
      (fun d => dst.cell src.cells (src.cells.index offset.index + d))
      (fun d => src.cell (src.cells.index (sourceOrigin box) + d))
  | textureResource dst src _ _ _ =>
    {p | ∃ s : Subresource query, s.resource = src ∧ ∃ d : Subresource query, d.resource = dst ∧
      d.index = s.index ∧ p ∈ copies (s.cells.extent s.extent) d.cell s.cell}
  | bufferResource dst src _ =>
    copies ⟨src.width.toNat, 1, 1⟩ (fun d => .byte (dst.heapOffset.toNat + d.x))
      (fun d => .byte (src.heapOffset.toNat + d.x))

/-- The commands of a copy write the cells it names, each from the cell it names, and nothing else.
-/
def Exact (c : Copy query) : Prop := writesOf c.commands = c.named

end Copy

/-! ## Planes -/

/-- The formats with two planes in one texture are those of depth and stencil. -/
theorem twoAspects_traits {format : DXGIFormat} (h : hasTwoAspects format = true) :
    (getDXGIFormatTraits format).depthStencil = true ∧ (getDXGIFormatTraits format).planeCount = 2 ∧
      ((getDXGIFormatTraits format).planes 0).elementSize = 4 ∧
      ((getDXGIFormatTraits format).planes 1).elementSize = 1 ∧
      ∀ plane, ((getDXGIFormatTraits format).planes plane).subsampleXLog2 = 0 ∧
        ((getDXGIFormatTraits format).planes plane).subsampleYLog2 = 0 := by
  have hplanes : ∀ depth stencil : DXGIFormat, ∀ size plane : Nat,
      ((depthStencilTraits depth stencil size).planes plane).subsampleXLog2 = 0 ∧
        ((depthStencilTraits depth stencil size).planes plane).subsampleYLog2 = 0 := by
    intro depth stencil size plane
    match plane with
    | 0 => exact ⟨rfl, rfl⟩
    | 1 => exact ⟨rfl, rfl⟩
    | _ + 2 => exact ⟨rfl, rfl⟩
  cases format <;> first
    | exact ⟨rfl, rfl, rfl, rfl, hplanes _ _ _⟩
    | exact absurd h Bool.false_ne_true

/-- The formats with planes in textures of their own have two. -/
theorem split_traits {format : DXGIFormat} (h : usesSplitPlaneBacking format = true) :
    (getDXGIFormatTraits format).planeCount = 2 ∧ logicalPlaneCount format = 2 := by
  cases format <;> first
    | exact ⟨rfl, rfl⟩
    | exact absurd h Bool.false_ne_true

/-- No format has more than two planes. -/
theorem planeCount_le (format : DXGIFormat) : (getDXGIFormatTraits format).planeCount ≤ 2 := by
  cases format with
  | other code => exact Nat.le_succ 1
  | _ => decide

/-- A format without planes subsamples nothing. -/
theorem subsample_of_planeCount_eq_zero {format : DXGIFormat}
    (h : (getDXGIFormatTraits format).planeCount = 0) (plane : Nat) :
    ((getDXGIFormatTraits format).planes plane).subsampleXLog2 = 0 ∧
      ((getDXGIFormatTraits format).planes plane).subsampleYLog2 = 0 := by
  cases format <;> first
    | exact ⟨rfl, rfl⟩
    | exact absurd h (Nat.succ_ne_zero _)

/-- Planes with textures of their own are no aspects. -/
theorem not_twoAspects_of_split {format : DXGIFormat} (h : usesSplitPlaneBacking format = true) :
    hasTwoAspects format = false := by
  rw [hasTwoAspects, h]
  rfl

theorem logicalPlaneCount_eq_one {format : DXGIFormat} (htwo : hasTwoAspects format = false)
    (hsplit : usesSplitPlaneBacking format = false) : logicalPlaneCount format = 1 := by
  have hpos : 1 ≤ logicalPlaneCount format := Nat.le_max_left 1 _
  rw [hasTwoAspects, hsplit] at htwo
  simp only [Bool.not_false, Bool.true_and, decide_eq_false_iff_not, not_lt] at htwo
  omega

theorem logicalPlaneCount_le (format : DXGIFormat) : logicalPlaneCount format ≤ 2 :=
  Nat.max_le.mpr ⟨by decide, planeCount_le format⟩

/-- Two aspects are two planes. -/
theorem logicalPlaneCount_of_twoAspects {format : DXGIFormat} (h : hasTwoAspects format = true) :
    logicalPlaneCount format = 2 := by
  have htraits := twoAspects_traits h
  rw [logicalPlaneCount, getTextureLogicalPlaneCount]
  change max 1 (getDXGIFormatTraits format).planeCount = 2
  rw [htraits.2.1]
  rfl

theorem not_split_of_twoAspects {format : DXGIFormat} (h : hasTwoAspects format = true) :
    usesSplitPlaneBacking format = false := by
  rw [hasTwoAspects, Bool.and_eq_true, Bool.not_eq_true'] at h
  exact h.1

namespace Subresource

variable (s : Subresource query)

/-- The queue finds the plane that the resource code finds. -/
theorem queuePlane : s.resource.getSubresourcePlane s.index = s.plane := by
  rw [TextureResource.getSubresourcePlane, plane, s.resource.kept.queuePlane s.lt,
    s.resource.kept.plane_eq]

theorem queueMip : s.resource.getMipLevel s.index = s.mip := by
  rw [TextureResource.getMipLevel, mip, s.resource.kept.queueMip s.lt, s.resource.kept.mip_eq]

theorem queueSlice : s.resource.getArraySlice s.index = s.slice := by
  rw [TextureResource.getArraySlice, slice, s.resource.kept.queueSlice s.lt,
    s.resource.kept.slice_eq]

theorem plane_lt : s.plane < logicalPlaneCount s.resource.format := by
  rw [plane, s.resource.kept.plane_eq]
  exact Nat.div_lt_of_lt_mul (s.resource.kept.lt_total s.lt)

theorem getTexture : s.resource.getTexture s.plane = some s.backing := by
  rw [TextureResource.getTexture, if_neg (by exact not_le.mpr s.plane_lt), backing]

/-- The backing texture is one that the resource has. -/
theorem backing_lt : s.backing < getTextureBackingPlaneCount s.resource.format := by
  have hplane := s.plane_lt
  rw [backing, getTextureBackingPlaneIndex, getTextureBackingPlaneCount]
  split
  · exact hplane
  · exact Nat.one_pos

/-- A plane without another one in its texture is what its texture has the number of. -/
theorem plane_eq_backing (h : hasTwoAspects s.resource.format = false) : s.backing = s.plane := by
  have hplane := s.plane_lt
  rw [backing, getTextureBackingPlaneIndex]
  split
  · rfl
  · next hsplit =>
    rw [logicalPlaneCount_eq_one h (Bool.eq_false_of_not_eq_true hsplit)] at hplane
    omega

theorem backing_eq_zero (h : hasTwoAspects s.resource.format = true) : s.backing = 0 := by
  rw [backing, getTextureBackingPlaneIndex, not_split_of_twoAspects h]
  rfl

theorem aspect_eq_zero (h : hasTwoAspects s.resource.format = false) : s.aspect = 0 := by
  rw [aspect, h]
  rfl

/-- A Metal texture has two aspects exactly where both planes are in it. -/
theorem aspectCount_eq :
    aspectCount (s.resource.textures s.backing).pixelFormat =
      if hasTwoAspects s.resource.format then 2 else 1 := by
  have haspects := s.resource.aspects s.backing s.backing_lt
  rw [aspectCount]
  split at haspects
  · next htwo => rw [if_pos haspects.1, if_pos htwo]
  · next htwo =>
    have hne : depthStencilPlanarFlags (s.resource.textures s.backing).pixelFormat ≠ 3 := by omega
    rw [if_neg hne, if_neg htwo]

/-- Which planes go through the kernels. -/
theorem planar_iff :
    ((getDXGIFormatTraits s.resource.format).depthStencil = true ∧
        1 < depthStencilPlanarFlags (s.resource.textures s.backing).pixelFormat) ↔
      hasTwoAspects s.resource.format = true := by
  have haspects := s.resource.aspects s.backing s.backing_lt
  constructor
  · rintro ⟨-, hflags⟩
    by_contra htwo
    rw [if_neg htwo] at haspects
    omega
  · intro htwo
    rw [if_pos htwo] at haspects
    exact ⟨(twoAspects_traits htwo).1, by omega⟩

theorem bytes_pos : 0 < s.cells.bytes :=
  s.resource.bytes s.plane s.plane_lt

theorem block_eq : s.cells.block = 1 ∨ s.cells.block = 4 := by
  rw [cells, FormatDesc.cells]
  split
  · exact .inr rfl
  · exact .inl rfl

theorem planeCount_eq :
    Queue.getPlaneCount s.resource.desc (CopyRegion.planeTraits s.resource.format) =
      logicalPlaneCount s.resource.format :=
  s.resource.kept.planeCount _

theorem subsample_eq :
    (if s.plane < (getDXGIFormatTraits s.resource.format).planeCount then
        ((getDXGIFormatTraits s.resource.format).planes s.plane).subsampleXLog2 else 0) =
        s.planeTraits.subsampleXLog2 ∧
      (if s.plane < (getDXGIFormatTraits s.resource.format).planeCount then
        ((getDXGIFormatTraits s.resource.format).planes s.plane).subsampleYLog2 else 0) =
        s.planeTraits.subsampleYLog2 := by
  by_cases hlt : s.plane < (getDXGIFormatTraits s.resource.format).planeCount
  · rw [if_pos hlt, if_pos hlt]
    exact ⟨rfl, rfl⟩
  · have hplane : s.plane < max 1 (getDXGIFormatTraits s.resource.format).planeCount := s.plane_lt
    have hzero : (getDXGIFormatTraits s.resource.format).planeCount = 0 := by omega
    have hsub := subsample_of_planeCount_eq_zero hzero s.plane
    rw [if_neg hlt, if_neg hlt]
    exact ⟨hsub.1.symm, hsub.2.symm⟩

/-- Without a box the queue copies the whole subresource. -/
theorem size_none : s.resource.getSubresourceSize s.index none = s.extent := by
  have hsub := s.subsample_eq
  simp only [TextureResource.getSubresourceSize, s.queueMip, s.queuePlane, hsub.1, hsub.2, extent]
  ext
  · rfl
  · by_cases hline : s.resource.desc.dimension = .texture1D
    · have hone : 1 >>> (s.mip + s.planeTraits.subsampleYLog2) ≤ 1 := Nat.shiftRight_le _ _
      rw [if_pos hline, s.resource.line hline]
      exact Nat.max_eq_left hone
    · rw [if_neg hline]
  · rfl

theorem size_some {block : Nat} {whole : Index} {b : Box} (h : BoxInside block whole b) :
    s.resource.getSubresourceSize s.index (some b) = sourceSize whole (some b) := by
  simp only [TextureResource.getSubresourceSize, sourceSize]
  rw [BitVec.toNat_sub_of_le h.left_le, BitVec.toNat_sub_of_le h.top_le,
    BitVec.toNat_sub_of_le h.front_le]

/-- The size that the queue computes for a source box inside the subresource. -/
theorem size_eq {box : Option Box} (h : ∀ b ∈ box, BoxInside s.cells.block s.extent b) :
    s.resource.getSubresourceSize s.index box = sourceSize s.extent box := by
  cases box with
  | none => exact s.size_none
  | some b => exact s.size_some (h b rfl)

/-- The level of Metal behind a subresource. -/
def level : Level := s.resource.level s.backing s.mip s.slice

theorem level_cell (site : Index) : s.level.cell s.aspect site = s.cell site := rfl

theorem level_cells (h : hasTwoAspects s.resource.format = false) : s.level.cells = s.cells := by
  simp only [level, TextureResource.level, cells, planeTraits]
  rw [s.plane_eq_backing h]

/-- Planes in one texture have cells of one texel. -/
theorem cells_of_twoAspects (h : hasTwoAspects s.resource.format = true) :
    s.cells = ⟨1, planeBytes (decide (s.plane = 1))⟩ := by
  have haspects := s.resource.aspects s.backing s.backing_lt
  have htraits := twoAspects_traits h
  have hplane := s.plane_lt
  rw [if_pos h] at haspects
  rw [logicalPlaneCount_of_twoAspects h] at hplane
  have hsize : s.planeTraits.elementSize = planeBytes (decide (s.plane = 1)) := by
    rw [planeTraits]
    by_cases hone : s.plane = 1
    · rw [hone, htraits.2.2.2.1]
      rfl
    · have hzero : s.plane = 0 := by omega
      rw [hzero, htraits.2.2.1]
      rfl
  have hbytes : planeBytes (decide (s.plane = 1)) ≠ 0 := by
    rw [planeBytes]
    split <;> decide
  rw [cells, FormatDesc.cells, haspects.2, hsize, if_pos hbytes]
  rfl

end Subresource

/-! ## Between textures -/

theorem mem_writesOf_singleton {command : Command} : writesOf [command] = command.writes := by
  ext p
  simp [writesOf]

theorem writesOf_nil : writesOf [] = ∅ := by
  ext p
  simp [writesOf]

section Textures

variable (dst src : Subresource query) (offset : Offset) (box : Option Box)

/-- The blit that a copy between textures is made of. -/
def textureBlit : Command :=
  .copyFromTextureToTexture src.level (sourceOrigin box) (sourceSize src.extent box) dst.level
    offset.index

/-- The blit of a copy between textures: none unless planes and formats agree. -/
theorem replay_textureToTexture (inside : ∀ b ∈ box, BoxInside src.cells.block src.extent b) :
    (Copy.textureToTexture dst src offset box inside).commands =
      if src.plane = dst.plane ∧ src.level.pixelFormat = dst.level.pixelFormat then
        [textureBlit dst src offset box] else [] := by
  have hdst : dst.location.subresource = dst.index := rfl
  have hsrc : src.location.subresource = src.index := rfl
  change CopyTextureRegionRecord.replayTextureCopy _ dst.resource src.resource = _
  simp only [CopyTextureRegionRecord.replayTextureCopy, hdst, hsrc, src.queuePlane, src.queueMip,
    src.queueSlice, dst.queuePlane, dst.queueMip, dst.queueSlice, src.size_eq inside]
  by_cases hplane : src.plane = dst.plane
  · rw [if_neg (not_not.mpr hplane), dst.getTexture, src.getTexture]
    by_cases hformat : src.level.pixelFormat = dst.level.pixelFormat
    · exact (if_neg (not_not.mpr hformat)).trans (if_pos ⟨hplane, hformat⟩).symm
    · exact (if_pos hformat).trans (if_neg fun h => hformat h.2).symm
  · rw [if_pos hplane, if_neg fun h => hplane h.1]

/-- The cells of a region between two textures, in one aspect of them. -/
def aspectCopies (aspect : Nat) : Set (Cell × Cell) :=
  copies (src.cells.extent (sourceSize src.extent box))
    (fun d => dst.level.cell aspect (dst.cells.index offset.index + d))
    (fun d => src.level.cell aspect (src.cells.index (sourceOrigin box) + d))

/-- What the blit writes: the named cells of each aspect that the textures have. -/
theorem textureBlit_writes :
    (textureBlit dst src offset box).writes =
      {p | ∃ aspect < if hasTwoAspects src.resource.format then 2 else 1,
        p ∈ aspectCopies dst src offset box aspect} := by
  rw [← src.aspectCount_eq]
  rfl

theorem textureBlit_writes_of_one (h : hasTwoAspects src.resource.format = false) :
    (textureBlit dst src offset box).writes = aspectCopies dst src offset box 0 := by
  rw [textureBlit_writes, h]
  ext p
  simp

theorem textureBlit_writes_of_two (h : hasTwoAspects src.resource.format = true) :
    (textureBlit dst src offset box).writes =
      aspectCopies dst src offset box 0 ∪ aspectCopies dst src offset box 1 := by
  rw [textureBlit_writes, h]
  ext p
  constructor
  · rintro ⟨aspect, haspect, hp⟩
    obtain rfl | rfl : aspect = 0 ∨ aspect = 1 := by
      simp only [if_true] at haspect
      omega
    · exact .inl hp
    · exact .inr hp
  · rintro (hp | hp)
    · exact ⟨0, by decide, hp⟩
    · exact ⟨1, by decide, hp⟩

/-- Textures of one pixel format have the same aspects. -/
theorem twoAspects_congr (h : src.level.pixelFormat = dst.level.pixelFormat) :
    hasTwoAspects src.resource.format = hasTwoAspects dst.resource.format := by
  have hsrc := src.aspectCount_eq
  have hdst := dst.aspectCount_eq
  change aspectCount src.level.pixelFormat = _ at hsrc
  change aspectCount dst.level.pixelFormat = _ at hdst
  rw [← h, hsrc] at hdst
  cases hs : hasTwoAspects src.resource.format <;> cases hd : hasTwoAspects dst.resource.format <;>
    simp_all

/-- With one aspect, the named cells are what the blit copies. -/
theorem named_textureToTexture_of_one (inside : ∀ b ∈ box, BoxInside src.cells.block src.extent b)
    (hsrc : hasTwoAspects src.resource.format = false)
    (hdst : hasTwoAspects dst.resource.format = false) :
    (Copy.textureToTexture dst src offset box inside).named =
      aspectCopies dst src offset box 0 := by
  simp only [Copy.named, aspectCopies, ← Subresource.level_cell, dst.aspect_eq_zero hdst,
    src.aspect_eq_zero hsrc]

/-- A copy in an aspect that the source's plane is not is more than the record names. -/
theorem aspectCopies_not_subset (inside : ∀ b ∈ box, BoxInside src.cells.block src.extent b)
    {aspect : Nat} (haspect : aspect ≠ src.aspect)
    (hne : ¬ (src.cells.extent (sourceSize src.extent box)).Empty) :
    ¬ aspectCopies dst src offset box aspect ⊆
      (Copy.textureToTexture dst src offset box inside).named := by
  intro hsub
  obtain ⟨d, -, heq⟩ := hsub ⟨0, Index.zero_below hne, rfl⟩
  rw [Prod.mk.injEq] at heq
  have hcell := heq.2
  simp only [Level.cell, Subresource.cell, Cell.texel.injEq] at hcell
  exact haspect hcell.2.1

/-- A copy between textures is exact when it is empty, or when plane and format agree and the
texture has one aspect. -/
theorem textureToTexture_exact_iff (inside : ∀ b ∈ box, BoxInside src.cells.block src.extent b) :
    (Copy.textureToTexture dst src offset box inside).Exact ↔
      (src.cells.extent (sourceSize src.extent box)).Empty ∨
        src.plane = dst.plane ∧ src.level.pixelFormat = dst.level.pixelFormat ∧
          hasTwoAspects src.resource.format = false := by
  rw [Copy.Exact, replay_textureToTexture]
  by_cases hempty : (src.cells.extent (sourceSize src.extent box)).Empty
  · have hnamed : (Copy.textureToTexture dst src offset box inside).named = ∅ :=
      copies_of_empty hempty _ _
    have hblit : (textureBlit dst src offset box).writes = ∅ := by
      refine Set.eq_empty_of_forall_notMem ?_
      rintro p ⟨aspect, -, d, hd, -⟩
      exact hd.not_empty hempty
    refine iff_of_true ?_ (.inl hempty)
    rw [hnamed]
    split
    · rw [mem_writesOf_singleton, hblit]
    · exact writesOf_nil
  · rw [or_iff_right hempty]
    by_cases hencoded : src.plane = dst.plane ∧ src.level.pixelFormat = dst.level.pixelFormat
    · rw [if_pos hencoded, mem_writesOf_singleton, ← and_assoc, and_iff_right hencoded]
      have hcongr := twoAspects_congr dst src hencoded.2
      cases htwo : hasTwoAspects src.resource.format with
      | false =>
        refine iff_of_true ?_ rfl
        rw [textureBlit_writes_of_one dst src offset box htwo,
          named_textureToTexture_of_one dst src offset box inside htwo (hcongr.symm.trans htwo)]
      | true =>
        refine iff_of_false ?_ Bool.noConfusion
        rw [textureBlit_writes_of_two dst src offset box htwo]
        intro heq
        -- the aspect of the other plane is written too
        by_cases hzero : src.aspect = 0
        · exact aspectCopies_not_subset dst src offset box inside (hzero ▸ Nat.one_ne_zero) hempty
            (heq ▸ Set.subset_union_right)
        · exact aspectCopies_not_subset dst src offset box inside (Ne.symm hzero) hempty
            (heq ▸ Set.subset_union_left)
    · rw [if_neg hencoded, writesOf_nil]
      refine iff_of_false ?_ fun h => hencoded ⟨h.1, h.2.1⟩
      intro heq
      exact hempty (copies_eq_empty_iff.mp heq.symm)

end Textures

/-! ## Between a texture and a buffer -/

/-- The queue copies `depth` slices of a subresource with a footprint of this format. -/
def Subresource.Encodes (s : Subresource query) (format : DXGIFormat) (depth : Nat) : Prop :=
  ¬ (1 < logicalPlaneCount s.resource.format ∧
      isDXGIFormatPlaneCompatible s.resource.format format s.plane = false) ∧
    (hasTwoAspects s.resource.format = true → depth = 1 ∧
      (getTextureType s.resource.desc).hasPlaneView = true)

instance (s : Subresource query) (format : DXGIFormat) (depth : Nat) :
    Decidable (s.Encodes format depth) :=
  inferInstanceAs (Decidable (_ ∧ _))

section Footprints

variable (s : Subresource query) (p : PlacedFootprint)

/-- The command between a subresource and a footprint. -/
def footprintCommand (toBuffer : Bool) (origin size : Index) : Command :=
  if hasTwoAspects s.resource.format then
    if toBuffer then
      .copyPlaneToBuffer s.level p.start p.footprint.rowPitch.toNat (decide (s.plane =
        1)) origin size
    else
      .copyPlaneFromBuffer p.start p.footprint.rowPitch.toNat s.level (decide (s.plane =
        1)) origin size
  else if toBuffer then
    .copyFromTextureToBuffer s.level origin size p.start p.footprint.rowPitch.toNat
      (u32 (p.slicePitch s.cells))
  else
    .copyFromBufferToTexture p.start p.footprint.rowPitch.toNat (u32 (p.slicePitch s.cells)) size
      s.level origin

/-- The rows of a footprint of the same blocks are counted as the footprint has them. -/
theorem imagePitch_eq (hcells : p.cells query = some s.cells) :
    footprintBlockHeight query p.footprint.format = s.cells.block ∧
      max 1 (u32 (p.footprint.height.toNat + s.cells.block - 1) / s.cells.block) =
        p.rows s.cells := by
  obtain ⟨desc, hquery, hdesc⟩ := Option.map_eq_some_iff.mp hcells
  have hblock := s.block_eq
  have hheight := p.height_lt
  constructor
  · rw [footprintBlockHeight, hquery, ← hdesc]
    rfl
  · rw [PlacedFootprint.rows, u32_of_lt (by omega)]

/-- A copy between a texture and a footprint is one command, where it is encoded. -/
theorem replay_footprint (hcells : p.cells query = some s.cells)
    (record : CopyTextureRegionRecord query) (toBuffer : Bool) {size : Index}
    (hsize : s.resource.getSubresourceSize s.index record.srcBox = size) :
    record.replayBufferTextureCopy toBuffer p.buffer s.resource (p.location query) s.location =
      if s.Encodes p.footprint.format size.z then
        [footprintCommand s p toBuffer
          (record.srcBox.elim (if toBuffer then 0 else record.dstOrigin) boxOrigin) size]
      else [] := by
  have hs : s.location.subresource = s.index := rfl
  have hp : (p.location query).placedFootprint = p.footprint := rfl
  have htype : ¬ (p.location query).type ≠ .placedFootprint := not_not.mpr rfl
  obtain ⟨hheight, hrows⟩ := imagePitch_eq s p hcells
  have hstart : u64 (p.buffer.heapOffset.toNat + p.footprint.offset.toNat) = p.start :=
    u64_of_lt p.offset_lt
  simp only [CopyTextureRegionRecord.replayBufferTextureCopy, hs, hp, if_neg htype, s.queuePlane,
    s.queueMip, s.queueSlice, s.getTexture, hsize, hstart, hheight, hrows, s.planeCount_eq]
  by_cases hcompatible : 1 < logicalPlaneCount s.resource.format ∧
      isDXGIFormatPlaneCompatible s.resource.format p.footprint.format s.plane = false
  · rw [if_pos hcompatible, if_neg fun h => h.1 hcompatible]
  · rw [if_neg hcompatible]
    by_cases htwo : hasTwoAspects s.resource.format = true
    · rw [if_pos (s.planar_iff.mpr htwo)]
      have hplane : ¬ 1 < s.plane := by
        have := s.plane_lt
        rw [logicalPlaneCount_of_twoAspects htwo] at this
        omega
      by_cases hencodes : size.z = 1 ∧ (getTextureType s.resource.desc).hasPlaneView = true
      · have henc : s.Encodes p.footprint.format size.z := ⟨hcompatible, fun _ => hencodes⟩
        rw [if_neg (by omega), if_pos henc, footprintCommand, if_pos htwo]
        cases toBuffer with
        | true => exact if_pos hencodes.2
        | false => exact if_pos hencodes.2
      · rw [if_neg fun h : s.Encodes p.footprint.format size.z => hencodes (h.2 htwo)]
        by_cases hdepth : size.z = 1
        · have hview : ¬ (getTextureType s.resource.desc).hasPlaneView = true :=
            fun h => hencodes ⟨hdepth, h⟩
          rw [if_neg (by omega)]
          cases toBuffer with
          | true => exact if_neg hview
          | false => exact if_neg hview
        · exact if_pos (.inl hdepth)
    · have henc : s.Encodes p.footprint.format size.z := ⟨hcompatible, fun h => absurd h htwo⟩
      rw [if_neg fun h => htwo (s.planar_iff.mp h), if_pos henc, footprintCommand, if_neg htwo]
      cases toBuffer with
      | true => rfl
      | false => rfl

/-- Where the queue has the cell `d` of a region in the buffer, from the start of the footprint. -/
def encodedOffset (toBuffer : Bool) (d : Index) : Nat :=
  let rowPitch := p.footprint.rowPitch.toNat
  if hasTwoAspects s.resource.format then
    if toBuffer then s.cells.bytes * u32 (rowMajor 1 (rowPitch / s.cells.bytes) 0 d)
    else u32 (rowMajor s.cells.bytes rowPitch 0 d)
  else rowMajor s.cells.bytes rowPitch (u32 (p.slicePitch s.cells)) d

/-- Where the queue has the region in the texture: a view of a plane has one slice. -/
def encodedOrigin (origin : Index) : Index :=
  if hasTwoAspects s.resource.format then ⟨origin.x, origin.y, 0⟩ else s.cells.index origin

/-- The pitches reach the last row of a region in 32 bits. The kernels that write a buffer count its
elements. -/
def PitchesFit (toBuffer : Bool) (n : Index) : Prop :=
  let rowPitch := p.footprint.rowPitch.toNat
  if hasTwoAspects s.resource.format then
    if toBuffer then rowMajor 1 (rowPitch / s.cells.bytes) 0 n.last < 2 ^ 32
    else rowMajor s.cells.bytes rowPitch 0 n.last < 2 ^ 32
  else n.z ≤ 1 ∨ p.slicePitch s.cells < 2 ^ 32

theorem slicePitch_pos (c : CellFormat) : 0 < p.slicePitch c :=
  Nat.mul_pos p.rowPitch_pos (Nat.lt_of_lt_of_le Nat.one_pos (Nat.le_max_left 1 _))

theorem planeAspect_eq (h : hasTwoAspects s.resource.format = true) :
    planeAspect (decide (s.plane = 1)) = s.aspect := by
  have hplane := s.plane_lt
  rw [logicalPlaneCount_of_twoAspects h] at hplane
  rw [Subresource.aspect, if_pos h]
  by_cases hone : s.plane = 1
  · rw [hone]
    rfl
  · have hzero : s.plane = 0 := by omega
    rw [hzero]
    rfl

/-- A place in texels is a place in cells. -/
theorem index_of_twoAspects (h : hasTwoAspects s.resource.format = true) (i : Index) :
    s.cells.index i = i := by
  rw [s.cells_of_twoAspects h]
  simp [CellFormat.index]

theorem extent_of_twoAspects (h : hasTwoAspects s.resource.format = true) (n : Index) :
    s.cells.extent n = n := by
  rw [s.cells_of_twoAspects h]
  simp [CellFormat.extent]

theorem planeBytes_eq (h : hasTwoAspects s.resource.format = true) :
    planeBytes (decide (s.plane = 1)) = s.cells.bytes := by
  rw [s.cells_of_twoAspects h]

/-- The offsets are those of a region of the footprint exactly where it starts at the origin and the
pitches fit. -/
theorem encodedOffset_iff (toBuffer : Bool) {n a : Index} (hne : ¬ n.Empty)
    (hz : hasTwoAspects s.resource.format = true → n.z ≤ 1) :
    (∀ d : Index, d.Below n → encodedOffset s p toBuffer d =
        rowMajor s.cells.bytes p.footprint.rowPitch.toNat (p.slicePitch s.cells) (a + d)) ↔
      a = 0 ∧ PitchesFit s p toBuffer n := by
  have hbytes := s.bytes_pos
  have hslice := slicePitch_pos p s.cells
  have hpitch := p.rowPitch_pos
  by_cases htwo : hasTwoAspects s.resource.format = true
  · cases toBuffer with
    | true =>
      have hdvd : s.cells.bytes * (p.footprint.rowPitch.toNat / s.cells.bytes) =
          p.footprint.rowPitch.toNat := by
        have haligned := p.aligned
        have hcases : s.cells.bytes = 1 ∨ s.cells.bytes = 4 := by
          rw [← planeBytes_eq s htwo, planeBytes]
          split
          · exact .inl rfl
          · exact .inr rfl
        obtain hone | hfour := hcases
        · rw [hone]
          omega
        · rw [hfour]
          omega
      have hrow : 0 < p.footprint.rowPitch.toNat / s.cells.bytes := by
        refine Nat.pos_of_ne_zero fun hzero => ?_
        rw [hzero] at hdvd
        omega
      have hiff :=
        rowMajor_scaled_mod_iff (m := 2 ^ 32) a hbytes Nat.one_pos hrow hslice (by decide) hne
          (hz htwo)
      simp only [encodedOffset, PitchesFit, htwo, if_true, u32]
      rw [Nat.mul_one, hdvd] at hiff
      exact hiff
    | false =>
      have hiff :=
        rowMajor_scaled_mod_iff (m := 2 ^ 32) a Nat.one_pos hbytes hpitch hslice (by decide) hne
          (hz htwo)
      simp only [encodedOffset, PitchesFit, htwo, if_true, u32, Bool.false_eq_true, if_false]
      simp only [Nat.one_mul] at hiff
      exact hiff
  · have hiff :=
      rowMajor_offset_iff (u32 (p.slicePitch s.cells)) a hbytes hpitch hslice hne
    have hfit : u32 (p.slicePitch s.cells) = p.slicePitch s.cells ↔
        p.slicePitch s.cells < 2 ^ 32 := by
      constructor
      · intro heq
        rw [← heq]
        exact u32_lt _
      · exact u32_of_lt
    simp only [encodedOffset, PitchesFit, htwo, if_false, Bool.false_eq_true]
    rw [hiff, hfit]

/-- The site of a cell in a view of one slice. -/
theorem flat_add (origin : Index) {d : Index} {x y : Nat} (hd : d.Below ⟨x, y, 1⟩) :
    (⟨origin.x + d.x, origin.y + d.y, 0⟩ : Index) = ⟨origin.x, origin.y, 0⟩ + d := by
  ext
  · rfl
  · rfl
  · simp [Nat.lt_one_iff.mp hd.2.2]

/-- The extent that a copy of a plane of depth and stencil has in its view. -/
theorem flat_extent (h : hasTwoAspects s.resource.format = true) {size : Index} (hz : size.z = 1) :
    (⟨size.x, size.y, 1⟩ : Index) = s.cells.extent size := by
  rw [extent_of_twoAspects s h]
  ext
  · rfl
  · rfl
  · exact hz.symm

/-- The command writes the texture from the encoded offsets. -/
theorem footprintCommand_writes_texture {size : Index} (origin : Index)
    (hz : hasTwoAspects s.resource.format = true → size.z = 1) :
    (footprintCommand s p false origin size).writes =
      copies (s.cells.extent size) (fun d => s.cell (encodedOrigin s origin + d))
        (fun d => .byte (p.start + encodedOffset s p false d)) := by
  by_cases htwo : hasTwoAspects s.resource.format = true
  · have hsize := flat_extent s htwo (hz htwo)
    simp only [footprintCommand, htwo, if_true, Bool.false_eq_true, if_false, Command.writes,
      encodedOrigin, encodedOffset, planeAspect_eq s htwo, planeBytes_eq s htwo,
      Subresource.level_cell, ← hsize]
    refine copies_congr (fun d hd => ?_) fun d hd => rfl
    rw [flat_add origin hd]
  · have hone : hasTwoAspects s.resource.format = false := Bool.eq_false_of_not_eq_true htwo
    simp only [footprintCommand, hone, Bool.false_eq_true, if_false, Command.writes,
      encodedOrigin, encodedOffset, s.level_cells hone, ← s.level_cell, s.aspect_eq_zero hone]

/-- The regions of the kernels that write a buffer are inside the view they read. -/
theorem extent_le_level (h : hasTwoAspects s.resource.format = true) :
    s.extent.x ≤ s.level.width ∧ s.extent.y ≤ s.level.height := by
  have hsub := (twoAspects_traits h).2.2.2.2
  have hcount := (twoAspects_traits h).2.1
  have hwidth := s.resource.width_lt
  have hx : s.planeTraits.subsampleXLog2 = 0 := (hsub s.plane).1
  have hy : s.planeTraits.subsampleYLog2 = 0 := (hsub s.plane).2
  simp only [Subresource.extent, Subresource.level, TextureResource.level,
    TextureResource.planeWidth, TextureResource.planeHeight, s.backing_eq_zero h, hcount,
    (hsub 0).1, (hsub 0).2, hx, hy, ite_self, Nat.shiftRight_zero, Nat.add_zero]
  have hmono : ∀ n : Nat, max 1 (n >>> s.mip) ≤ max 1 (max 1 n >>> s.mip) := by
    intro n
    rw [Nat.shiftRight_eq_div_pow, Nat.shiftRight_eq_div_pow]
    exact max_le_max le_rfl (Nat.div_le_div_right (le_max_right _ _))
  constructor
  · rw [u32_of_lt (by omega)]
    exact hmono _
  · by_cases hline : s.resource.desc.dimension = .texture1D
    · rw [if_pos hline, if_pos hline]
      exact le_max_left _ _
    · rw [if_neg hline, if_neg hline]
      exact hmono _

/-- A region of a subresource ends inside it. -/
theorem region_le {box : Option Box} (inside : ∀ b ∈ box, BoxInside 1 s.extent b) :
    (sourceOrigin box).x + (sourceSize s.extent box).x ≤ s.extent.x ∧
      (sourceOrigin box).y + (sourceSize s.extent box).y ≤ s.extent.y ∧
        (sourceOrigin box).z + (sourceSize s.extent box).z ≤ s.extent.z := by
  cases box with
  | none => simp [sourceOrigin, sourceSize]
  | some b =>
    obtain ⟨hleft, htop, hfront, hright, hbottom, hback⟩ := inside b rfl
    simp only [Nat.add_sub_cancel, Nat.div_one, Nat.mul_one] at hright hbottom
    simp only [sourceOrigin, sourceSize, boxOrigin, Option.elim]
    omega

/-- The command writes the buffer from the region of the subresource. -/
theorem footprintCommand_writes_buffer {box : Option Box}
    (inside : ∀ b ∈ box, BoxInside s.cells.block s.extent b)
    (hz : hasTwoAspects s.resource.format = true → (sourceSize s.extent box).z = 1) :
    (footprintCommand s p true (sourceOrigin box) (sourceSize s.extent box)).writes =
      copies (s.cells.extent (sourceSize s.extent box))
        (fun d => .byte (p.start + encodedOffset s p true d))
        (fun d => s.cell (encodedOrigin s (sourceOrigin box) + d)) := by
  by_cases htwo : hasTwoAspects s.resource.format = true
  · have hblock : s.cells.block = 1 := by rw [s.cells_of_twoAspects htwo]
    rw [hblock] at inside
    have hregion := region_le s inside
    have hlevel := extent_le_level s htwo
    generalize sourceSize s.extent box = size at hz hregion
    generalize sourceOrigin box = origin at hregion
    have hsize := flat_extent s htwo (hz htwo)
    simp only [footprintCommand, htwo, if_true, Command.writes, encodedOrigin, encodedOffset,
      planeAspect_eq s htwo, planeBytes_eq s htwo, Subresource.level_cell, ← hsize]
    ext q
    constructor
    · rintro ⟨d, hd, -, -, rfl⟩
      refine ⟨d, hd, ?_⟩
      rw [flat_add origin hd]
    · rintro ⟨d, hd, rfl⟩
      have hx : d.x < size.x := hd.1
      have hy : d.y < size.y := hd.2.1
      refine ⟨d, hd, by omega, by omega, ?_⟩
      rw [flat_add origin hd]
  · have hone : hasTwoAspects s.resource.format = false := Bool.eq_false_of_not_eq_true htwo
    simp only [footprintCommand, hone, Bool.false_eq_true, if_false, if_true, Command.writes,
      encodedOrigin, encodedOffset, s.level_cells hone, ← s.level_cell, s.aspect_eq_zero hone]

theorem cell_injective : Function.Injective s.cell := by
  intro a b h
  simpa only [Subresource.cell, Cell.texel.injEq, true_and] using h

/-- A command to the texture does what a region of the footprint says exactly where it has its place
and its extent, and the region starts at the origin of the footprint. -/
theorem writes_texture_iff {size origin n o a : Index} (hne : ¬ (s.cells.extent size).Empty)
    (hz : hasTwoAspects s.resource.format = true → size.z = 1) :
    (footprintCommand s p false origin size).writes =
        copies n (fun d => s.cell (o + d)) (fun d => p.cell s.cells (a + d)) ↔
      encodedOrigin s origin = o ∧ s.cells.extent size = n ∧ a = 0 ∧
        PitchesFit s p false (s.cells.extent size) := by
  have hone : hasTwoAspects s.resource.format = true → (s.cells.extent size).z ≤ 1 :=
    fun h => (hz h).le
  rw [footprintCommand_writes_texture s p origin hz, copies_shift_eq_iff (cell_injective s),
    or_iff_right fun h => hne h.1, ← encodedOffset_iff s p false hne hone]
  simp only [PlacedFootprint.cell, Cell.byte.injEq, Nat.add_left_cancel_iff]

/-- A command to the buffer does what a region of the footprint says exactly where the source has
its place and the region starts at the origin of the footprint. -/
theorem writes_buffer_iff {box : Option Box} {a : Index}
    (inside : ∀ b ∈ box, BoxInside s.cells.block s.extent b)
    (hne : ¬ (s.cells.extent (sourceSize s.extent box)).Empty)
    (hz : hasTwoAspects s.resource.format = true → (sourceSize s.extent box).z = 1) :
    (footprintCommand s p true (sourceOrigin box) (sourceSize s.extent box)).writes =
        copies (s.cells.extent (sourceSize s.extent box)) (fun d => p.cell s.cells (a + d))
          (fun d => s.cell (s.cells.index (sourceOrigin box) + d)) ↔
      encodedOrigin s (sourceOrigin box) = s.cells.index (sourceOrigin box) ∧ a = 0 ∧
        PitchesFit s p true (s.cells.extent (sourceSize s.extent box)) := by
  have hone : hasTwoAspects s.resource.format = true →
      (s.cells.extent (sourceSize s.extent box)).z ≤ 1 :=
    fun h => (hz h).le
  rw [footprintCommand_writes_buffer s p inside hz, copies_from_shift_eq_iff (cell_injective s),
    or_iff_right fun h => hne h.1, ← encodedOffset_iff s p true hne hone, and_iff_right rfl]
  simp only [PlacedFootprint.cell, Cell.byte.injEq, Nat.add_left_cancel_iff]

/-- The encoded origin drops `z` where both planes are in one texture. -/
theorem encodedOrigin_eq_iff (origin : Index) :
    encodedOrigin s origin = s.cells.index origin ↔
      (hasTwoAspects s.resource.format = true → origin.z = 0) := by
  by_cases htwo : hasTwoAspects s.resource.format = true
  · rw [encodedOrigin, if_pos htwo, index_of_twoAspects s htwo, Index.ext_iff]
    simp only [true_and, htwo, forall_const]
    exact eq_comm
  · rw [encodedOrigin, if_neg htwo]
    exact iff_of_true rfl fun h => absurd h htwo

theorem encodedOrigin_of_zero {origin : Index} (h : s.cells.index origin = 0) :
    encodedOrigin s origin = 0 := by
  rw [(encodedOrigin_eq_iff s origin).mpr, h]
  intro htwo
  rw [index_of_twoAspects s htwo] at h
  rw [h]
  rfl

theorem index_zero (c : CellFormat) : c.index 0 = 0 := by
  simp [CellFormat.index, Index.ext_iff]

/-- A subresource has a cell. -/
theorem extent_not_empty : ¬ (s.cells.extent s.extent).Empty := by
  have hblock := s.block_eq
  have hx : 1 ≤ s.extent.x := le_max_left _ _
  have hy : 1 ≤ s.extent.y := by
    simp only [Subresource.extent]
    split
    · exact le_rfl
    · exact le_max_left _ _
  have hz : 1 ≤ s.extent.z := by
    simp only [Subresource.extent]
    split
    · exact le_max_left _ _
    · exact le_rfl
  simp only [CellFormat.extent, Index.Empty]
  obtain hone | hfour := hblock
  · rw [hone]
    omega
  · rw [hfour]
    omega

/-- What has views of its planes is one texel deep. -/
theorem extent_z_of_planeView (h : (getTextureType s.resource.desc).hasPlaneView = true) :
    s.extent.z = 1 := by
  simp only [Subresource.extent]
  rw [if_neg]
  intro hvolume
  rw [getTextureType, hvolume, if_neg (by decide), if_pos rfl] at h
  exact Bool.noConfusion h

end Footprints

/-! ## Exactness -/

namespace Copy

/-- What the queue does of what records may say. Between textures: one plane to the same plane of a
texture of the same pixel format, if it has its texture for itself. With a footprint: a region that
starts at the origin of the footprint, and a box at the origin of the texture; without a box, a
footprint of the extent of its subresource. Of resources: those whose planes are in one texture. -/
def Meets : Copy query → Prop
  | textureToTexture dst src _ box _ =>
    (src.cells.extent (sourceSize src.extent box)).Empty ∨
      src.plane = dst.plane ∧ src.level.pixelFormat = dst.level.pixelFormat ∧
        hasTwoAspects src.resource.format = false
  | footprintToTexture dst src offset (some box) _ _ =>
    (dst.cells.extent (sourceSize src.extent (some box))).Empty ∨
      dst.Encodes src.footprint.format (sourceSize src.extent (some box)).z ∧
        dst.cells.index (boxOrigin box) = 0 ∧ dst.cells.index offset.index = 0 ∧
          PitchesFit dst src false (dst.cells.extent (sourceSize src.extent (some box)))
  | footprintToTexture dst src offset none _ _ =>
    if dst.Encodes src.footprint.format dst.extent.z then
      dst.cells.extent src.extent = dst.cells.extent dst.extent ∧
        (hasTwoAspects dst.resource.format = true → offset.z = 0) ∧
          PitchesFit dst src false (dst.cells.extent dst.extent)
    else (dst.cells.extent src.extent).Empty
  | textureToFootprint dst src offset box _ _ =>
    (src.cells.extent (sourceSize src.extent box)).Empty ∨
      src.Encodes dst.footprint.format (sourceSize src.extent box).z ∧
        src.cells.index offset.index = 0 ∧
        PitchesFit src dst true (src.cells.extent (sourceSize src.extent box))
  | textureResource dst _ _ _ _ => usesSplitPlaneBacking dst.format = false
  | bufferResource _ _ _ => True

/-- Nothing is what is named exactly for an empty region. -/
theorem writesOf_nil_eq_copies_iff {n : Index} {target source : Index → Cell} :
    writesOf [] = copies n target source ↔ n.Empty := by
  rw [writesOf_nil, eq_comm, copies_eq_empty_iff]

/-- A boxed copy from a footprint is exact where it meets the condition. -/
theorem footprintToTexture_box_exact_iff (dst : Subresource query) (src : PlacedFootprint)
    (offset : Offset) (box : Box) (inside : ∀ b ∈ some box, BoxInside dst.cells.block src.extent b)
    (cells : src.cells query = some dst.cells) :
    (footprintToTexture dst src offset (some box) inside cells).Exact ↔
      (footprintToTexture dst src offset (some box) inside cells).Meets := by
  have hcommands : (footprintToTexture dst src offset (some box) inside cells).commands =
      if dst.Encodes src.footprint.format (sourceSize src.extent (some box)).z then
        [footprintCommand dst src false (boxOrigin box)
          (sourceSize src.extent (some box))] else [] :=
    replay_footprint dst src cells _ false (dst.size_some (inside box rfl))
  simp only [Exact, hcommands, Meets, named]
  by_cases hencodes : dst.Encodes src.footprint.format (sourceSize src.extent (some box)).z
  · rw [if_pos hencodes, mem_writesOf_singleton, and_iff_right hencodes]
    have hz : hasTwoAspects dst.resource.format = true → (sourceSize src.extent (some box)).z = 1 :=
      fun h => (hencodes.2 h).1
    by_cases hempty : (dst.cells.extent (sourceSize src.extent (some box))).Empty
    · rw [footprintCommand_writes_texture dst src _ hz, copies_of_empty hempty,
        copies_of_empty hempty]
      exact iff_of_true rfl (.inl hempty)
    · rw [or_iff_right hempty, writes_texture_iff dst src hempty hz]
      constructor
      · rintro ⟨horigin, -, hzero, hpitches⟩
        have hstart : encodedOrigin dst (boxOrigin box) = 0 := encodedOrigin_of_zero dst hzero
        exact ⟨hzero, horigin.symm.trans hstart, hpitches⟩
      · rintro ⟨hzero, hoffset, hpitches⟩
        exact ⟨(encodedOrigin_of_zero dst hzero).trans hoffset.symm, rfl, hzero, hpitches⟩
  · rw [if_neg hencodes, writesOf_nil_eq_copies_iff]
    exact (or_iff_left fun h => hencodes h.1).symm

/-- A whole copy from a footprint is exact where it meets the condition. -/
theorem footprintToTexture_whole_exact_iff (dst : Subresource query) (src : PlacedFootprint)
    (offset : Offset) (inside : ∀ b ∈ none, BoxInside dst.cells.block src.extent b)
    (cells : src.cells query = some dst.cells) :
    (footprintToTexture dst src offset none inside cells).Exact ↔
      (footprintToTexture dst src offset none inside cells).Meets := by
  have hcommands : (footprintToTexture dst src offset none inside cells).commands =
      if dst.Encodes src.footprint.format dst.extent.z then
        [footprintCommand dst src false offset.index dst.extent] else [] :=
    replay_footprint dst src cells _ false dst.size_none
  simp only [Exact, hcommands, Meets, named]
  by_cases hencodes : dst.Encodes src.footprint.format dst.extent.z
  · have hz : hasTwoAspects dst.resource.format = true → dst.extent.z = 1 :=
      fun h => (hencodes.2 h).1
    have hzero : dst.cells.index (sourceOrigin none) = 0 := index_zero dst.cells
    have hoffset := encodedOrigin_eq_iff dst offset.index
    rw [if_pos hencodes, if_pos hencodes, mem_writesOf_singleton,
      writes_texture_iff dst src (extent_not_empty dst) hz, and_iff_right hzero, hoffset]
    constructor
    · rintro ⟨horigin, hextent, hpitches⟩
      refine ⟨hextent.symm, fun h => ?_, hpitches⟩
      exact BitVec.eq_of_toNat_eq (horigin h)
    · rintro ⟨hextent, horigin, hpitches⟩
      exact ⟨fun h => congrArg BitVec.toNat (horigin h), hextent.symm, hpitches⟩
  · rw [if_neg hencodes, if_neg hencodes, writesOf_nil_eq_copies_iff]
    rfl

/-- A copy to a footprint is exact where it meets the condition. -/
theorem textureToFootprint_exact_iff (dst : PlacedFootprint) (src : Subresource query)
    (offset : Offset) (box : Option Box)
    (inside : ∀ b ∈ box, BoxInside src.cells.block src.extent b)
    (cells : dst.cells query = some src.cells) :
    (textureToFootprint dst src offset box inside cells).Exact ↔
      (textureToFootprint dst src offset box inside cells).Meets := by
  have hcommands : (textureToFootprint dst src offset box inside cells).commands =
      if src.Encodes dst.footprint.format (sourceSize src.extent box).z then
        [footprintCommand src dst true (sourceOrigin box) (sourceSize src.extent box)] else [] :=
    replay_footprint src dst cells _ true (src.size_eq inside)
  simp only [Exact, hcommands, Meets, named]
  by_cases hencodes : src.Encodes dst.footprint.format (sourceSize src.extent box).z
  · rw [if_pos hencodes, mem_writesOf_singleton, and_iff_right hencodes]
    have hz : hasTwoAspects src.resource.format = true → (sourceSize src.extent box).z = 1 :=
      fun h => (hencodes.2 h).1
    by_cases hempty : (src.cells.extent (sourceSize src.extent box)).Empty
    · rw [footprintCommand_writes_buffer src dst inside hz, copies_of_empty hempty,
        copies_of_empty hempty]
      exact iff_of_true rfl (.inl hempty)
    · have horigin : encodedOrigin src (sourceOrigin box) = src.cells.index (sourceOrigin box) := by
        refine (encodedOrigin_eq_iff src _).mpr fun htwo => ?_
        -- the one slice of the source starts at 0
        have hblock : src.cells.block = 1 := by rw [src.cells_of_twoAspects htwo]
        have hregion := region_le src (hblock ▸ inside)
        have hdepth := extent_z_of_planeView src (hencodes.2 htwo).2
        have hone := hz htwo
        omega
      rw [or_iff_right hempty, writes_buffer_iff src dst inside hempty hz, and_iff_right horigin]
  · rw [if_neg hencodes, writesOf_nil_eq_copies_iff]
    exact (or_iff_left fun h => hencodes h.1).symm

end Copy

/-! ## Whole resources -/

/-- The subresources of a plane. -/
def TextureResource.perPlane (t : TextureResource query) : Nat :=
  getMipLevels t.desc * Queue.arraySize t.desc

theorem TextureResource.perPlane_congr {t u : TextureResource query} (h : t.desc = u.desc) :
    t.perPlane = u.perPlane := by
  rw [perPlane, perPlane, h]

theorem TextureResource.perPlane_pos (t : TextureResource query) : 0 < t.perPlane :=
  t.kept.plane_pos

/-- A texture has few enough mips for its subresources to be counted. -/
theorem TextureResource.count_eq (t : TextureResource query) :
    getTextureSubresourceCount t.desc (planeTraits t.format) =
      t.perPlane * logicalPlaneCount t.format := by
  have hmips : getMipLevels t.desc ≤ 65 := t.levels.trans (getMaxMipLevels_bounds t.desc).2
  have hslices := t.kept.slices_bounds.2
  have hplanes := logicalPlaneCount_le t.format
  have hlt : t.perPlane * logicalPlaneCount t.format < 2 ^ 32 :=
    calc t.perPlane * logicalPlaneCount t.format
        ≤ 65 * 2 ^ 16 * 2 := Nat.mul_le_mul (Nat.mul_le_mul hmips hslices.le) hplanes
      _ < 2 ^ 32 := by decide
  rw [t.kept.count]
  exact u32_of_lt hlt

namespace Subresource

variable (s : Subresource query)

theorem plane_eq_div : s.plane = s.index / s.resource.perPlane := s.resource.kept.plane_eq s.index

/-- The subresource of the same mip and slice in another plane. -/
def inPlane (plane : Nat) (h : plane < logicalPlaneCount s.resource.format) :
    Subresource query where
  resource := s.resource
  index := s.index % s.resource.perPlane + s.resource.perPlane * plane
  lt := by
    rw [s.resource.count_eq]
    calc s.index % s.resource.perPlane + s.resource.perPlane * plane
        < s.resource.perPlane * (plane + 1) := by
          rw [Nat.mul_succ, Nat.add_comm]
          exact Nat.add_lt_add_left (Nat.mod_lt _ s.resource.perPlane_pos) _
      _ ≤ s.resource.perPlane * logicalPlaneCount s.resource.format := Nat.mul_le_mul_left _ h

variable {plane : Nat} {h : plane < logicalPlaneCount s.resource.format}

theorem inPlane_plane : (s.inPlane plane h).plane = plane := by
  have hmod := Nat.mod_lt s.index s.resource.perPlane_pos
  rw [plane_eq_div]
  change (s.index % s.resource.perPlane + s.resource.perPlane * plane) / s.resource.perPlane = plane
  rw [Nat.add_mul_div_left _ _ s.resource.perPlane_pos, Nat.div_eq_of_lt hmod, Nat.zero_add]

theorem inPlane_mod :
    (s.inPlane plane h).index % s.resource.perPlane = s.index % s.resource.perPlane := by
  change (s.index % s.resource.perPlane + s.resource.perPlane * plane) % s.resource.perPlane = _
  rw [Nat.add_mul_mod_self_left, Nat.mod_mod]

theorem mip_eq_mod : s.mip = s.index % s.resource.perPlane % getMipLevels s.resource.desc :=
  s.resource.kept.mip_eq s.index

theorem slice_eq_mod : s.slice = s.index % s.resource.perPlane / getMipLevels s.resource.desc :=
  s.resource.kept.slice_eq s.index

theorem inPlane_mip : (s.inPlane plane h).mip = s.mip := by
  rw [mip_eq_mod, s.mip_eq_mod, ← s.inPlane_mod (h := h)]
  rfl

theorem inPlane_slice : (s.inPlane plane h).slice = s.slice := by
  rw [slice_eq_mod, s.slice_eq_mod, ← s.inPlane_mod (h := h)]
  rfl

/-- The planes of depth and stencil are in one level. -/
theorem inPlane_level (htwo : hasTwoAspects s.resource.format = true) :
    (s.inPlane plane h).level = s.level := by
  rw [level, level, s.inPlane_mip, s.inPlane_slice, s.backing_eq_zero htwo,
    (s.inPlane plane h).backing_eq_zero htwo]
  rfl

theorem inPlane_extent (htwo : hasTwoAspects s.resource.format = true) :
    (s.inPlane plane h).extent = s.extent := by
  have hsub := (twoAspects_traits htwo).2.2.2.2
  have hx : (s.inPlane plane h).planeTraits.subsampleXLog2 = s.planeTraits.subsampleXLog2 :=
    (hsub _).1.trans (hsub _).1.symm
  have hy : (s.inPlane plane h).planeTraits.subsampleYLog2 = s.planeTraits.subsampleYLog2 :=
    (hsub _).2.trans (hsub _).2.symm
  simp only [extent, s.inPlane_mip, hx, hy]
  rfl

end Subresource

/-- Two subresources of one number in textures of one description. -/
structure Twins (d s : Subresource query) : Prop where
  desc : d.resource.desc = s.resource.desc
  format : d.resource.format = s.resource.format
  allowDepthStencil : d.resource.allowDepthStencil = s.resource.allowDepthStencil
  index : d.index = s.index

namespace Twins

variable {d s : Subresource query} (h : Twins d s)

include h

theorem plane_eq : d.plane = s.plane := by
  rw [Subresource.plane, Subresource.plane, h.desc, h.index]

theorem backing_eq : d.backing = s.backing := by
  rw [Subresource.backing, Subresource.backing, h.format, h.plane_eq]

theorem aspect_eq : d.aspect = s.aspect := by
  rw [Subresource.aspect, Subresource.aspect, h.format, h.plane_eq]

theorem pixelFormat_eq : s.level.pixelFormat = d.level.pixelFormat := by
  have hd := d.resource.created d.backing d.backing_lt
  have hs := s.resource.created s.backing s.backing_lt
  rw [h.format, h.allowDepthStencil, h.backing_eq, hs] at hd
  have htextures := Option.some.inj hd
  change (s.resource.textures s.backing).pixelFormat = (d.resource.textures d.backing).pixelFormat
  rw [htextures, h.backing_eq]

end Twins

theorem mem_writesOf_flatMap {ι : Type} {l : List ι} {f : ι → List Command} {p : Cell × Cell} :
    p ∈ writesOf (l.flatMap f) ↔ ∃ i ∈ l, p ∈ writesOf (f i) := by
  constructor
  · rintro ⟨command, hmem, hp⟩
    obtain ⟨i, hi, hcommand⟩ := List.mem_flatMap.mp hmem
    exact ⟨i, hi, command, hcommand, hp⟩
  · rintro ⟨i, hi, command, hcommand, hp⟩
    exact ⟨command, List.mem_flatMap.mpr ⟨i, hi, hcommand⟩, hp⟩

/-- Depth and stencil are copied alike in the level they are in. -/
theorem inPlane_copies {d s : Subresource query} (hd : hasTwoAspects d.resource.format = true)
    (hs : hasTwoAspects s.resource.format = true) {plane : Nat}
    (hpd : plane < logicalPlaneCount d.resource.format)
    (hps : plane < logicalPlaneCount s.resource.format) (aspect : Nat) :
    copies ((s.inPlane plane hps).cells.extent (s.inPlane plane hps).extent)
        ((d.inPlane plane hpd).level.cell aspect) ((s.inPlane plane hps).level.cell aspect) =
      copies (s.cells.extent s.extent) (d.level.cell aspect) (s.level.cell aspect) := by
  have hextent : (s.inPlane plane hps).cells.extent (s.inPlane plane hps).extent =
      s.cells.extent s.extent := by
    rw [extent_of_twoAspects _ hs, extent_of_twoAspects (s.inPlane plane hps) hs,
      s.inPlane_extent hs]
  rw [hextent, d.inPlane_level hd, s.inPlane_level hs]

section Resources

variable {dst src : TextureResource query} (desc : dst.desc = src.desc)
  (format : dst.format = src.format)
  (allowDepthStencil : dst.allowDepthStencil = src.allowDepthStencil)

include desc format allowDepthStencil

theorem twins_of_index {d s : Subresource query} (hd : d.resource = dst) (hs : s.resource = src)
    (hindex : d.index = s.index) : Twins d s := by
  subst hd hs
  exact ⟨desc, format, allowDepthStencil, hindex⟩

/-- One copy of a whole subresource. -/
theorem replay_whole {d s : Subresource query} (hd : d.resource = dst) (hs : s.resource = src)
    (hindex : d.index = s.index) :
    writesOf (CopyTextureRegionRecord.replayCopyTextureRegion
        ⟨subresourceLocation (.texture dst) d.index, 0, 0, 0,
          subresourceLocation (.texture src) s.index, none⟩) =
      {p | ∃ aspect < if hasTwoAspects src.format then 2 else 1,
        p ∈ copies (s.cells.extent s.extent) (d.level.cell aspect) (s.level.cell aspect)} := by
  have htwins := twins_of_index desc format allowDepthStencil hd hs hindex
  subst hd hs
  have hreplay := replay_textureToTexture d s ⟨0, 0, 0⟩ none (fun b hb => nomatch hb)
  rw [if_pos ⟨htwins.plane_eq.symm, htwins.pixelFormat_eq⟩] at hreplay
  change writesOf (Copy.textureToTexture d s ⟨0, 0, 0⟩ none (fun b hb => nomatch hb)).commands = _
  rw [hreplay, mem_writesOf_singleton, textureBlit_writes]
  have hzero : ∀ c : CellFormat, c.index (Offset.index ⟨0, 0, 0⟩) = 0 := index_zero
  have horigin : s.cells.index (sourceOrigin none) = 0 := index_zero s.cells
  simp only [aspectCopies, hzero, horigin, Index.zero_add]
  rfl

theorem mem_replayCopyResource {p : Cell × Cell} :
    p ∈ writesOf (replayCopyResource (.texture dst) (.texture src)) ↔
      ∃ d s : Subresource query, d.resource = dst ∧ s.resource = src ∧ d.index = s.index ∧
        s.plane = 0 ∧
        ∃ aspect < if hasTwoAspects src.format then 2 else 1,
          p ∈ copies (s.cells.extent s.extent) (d.level.cell aspect) (s.level.cell aspect) := by
  have hcount : min (Queue.baseCount dst.desc) (Queue.baseCount src.desc) = src.perPlane := by
    rw [desc, Nat.min_self, src.kept.baseCount]
    rfl
  rw [replayCopyResource, hcount, mem_writesOf_flatMap]
  constructor
  · rintro ⟨i, hi, hp⟩
    rw [List.mem_range] at hi
    have hone : 0 < logicalPlaneCount src.format :=
      Nat.lt_of_lt_of_le Nat.one_pos (Nat.le_max_left 1 _)
    have hsrc : i < getTextureSubresourceCount src.desc (planeTraits src.format) := by
      rw [src.count_eq]
      exact Nat.lt_of_lt_of_le hi (Nat.le_mul_of_pos_right _ hone)
    have hdst : i < getTextureSubresourceCount dst.desc (planeTraits dst.format) := by
      rw [desc, format]
      exact hsrc
    have hplane : (⟨src, i, hsrc⟩ : Subresource query).plane = 0 := by
      rw [Subresource.plane_eq_div]
      exact Nat.div_eq_of_lt hi
    have hreplay := replay_whole desc format allowDepthStencil
      (d := ⟨dst, i, hdst⟩) (s := ⟨src, i, hsrc⟩) rfl rfl rfl
    rw [hreplay] at hp
    exact ⟨⟨dst, i, hdst⟩, ⟨src, i, hsrc⟩, rfl, rfl, rfl, hplane, hp⟩
  · rintro ⟨d, s, hd, hs, hindex, hplane, hp⟩
    refine ⟨s.index, ?_, ?_⟩
    · rw [Subresource.plane_eq_div, hs] at hplane
      exact List.mem_range.mpr ((Nat.div_eq_zero_iff.mp hplane).resolve_left src.perPlane_pos.ne')
    · have hreplay := replay_whole desc format allowDepthStencil hd hs hindex
      rw [hindex] at hreplay
      rw [hreplay]
      exact hp

/-- The pairs of a resource are those of its subresources. -/
theorem mem_named_textureResource {p : Cell × Cell} :
    p ∈ (Copy.textureResource dst src desc format allowDepthStencil).named ↔
      ∃ d s : Subresource query, d.resource = dst ∧ s.resource = src ∧ d.index = s.index ∧
        p ∈ copies (s.cells.extent s.extent) (d.level.cell s.aspect) (s.level.cell s.aspect) := by
  constructor
  · rintro ⟨s, hs, d, hd, hindex, hp⟩
    have htwins := twins_of_index desc format allowDepthStencil hd hs hindex
    have hd' : d.cell = d.level.cell s.aspect := by
      rw [← htwins.aspect_eq]
      rfl
    refine ⟨d, s, hd, hs, hindex, ?_⟩
    rw [hd'] at hp
    exact hp
  · rintro ⟨d, s, hd, hs, hindex, hp⟩
    have htwins := twins_of_index desc format allowDepthStencil hd hs hindex
    refine ⟨s, hs, d, hd, hindex, ?_⟩
    have hd' : d.level.cell s.aspect = d.cell := by
      rw [← htwins.aspect_eq]
      rfl
    rw [hd'] at hp
    exact hp

/-- A second plane with a texture of its own is not copied. -/
theorem textureResource_not_exact (hsplit : usesSplitPlaneBacking src.format = true) :
    ¬ (Copy.textureResource dst src desc format allowDepthStencil).Exact := by
  intro hexact
  have hplanes := (split_traits hsplit).2
  have hzero : 0 < src.perPlane * logicalPlaneCount src.format := by
    rw [hplanes]
    exact Nat.mul_pos src.perPlane_pos (by decide)
  have hsrc : 0 < getTextureSubresourceCount src.desc (planeTraits src.format) := by
    rw [src.count_eq]
    exact hzero
  have hdst : 0 < getTextureSubresourceCount dst.desc (planeTraits dst.format) := by
    rw [desc, format]
    exact hsrc
  have hone : 1 < logicalPlaneCount src.format := by
    rw [hplanes]
    decide
  let s : Subresource query := (⟨src, 0, hsrc⟩ : Subresource query).inPlane 1 hone
  let d : Subresource query := (⟨dst, 0, hdst⟩ : Subresource query).inPlane 1 (format ▸ hone)
  have hindex : d.index = s.index := by
    change 0 % dst.perPlane + dst.perPlane * 1 = 0 % src.perPlane + src.perPlane * 1
    rw [TextureResource.perPlane_congr desc]
  have hmem : (d.cell 0, s.cell 0) ∈
      (Copy.textureResource dst src desc format allowDepthStencil).named :=
    ⟨s, rfl, d, rfl, hindex, 0, Index.zero_below (extent_not_empty s), rfl⟩
  rw [← hexact] at hmem
  obtain ⟨d', s', -, hs', -, hplane, aspect, -, x, -, heq⟩ :=
    (mem_replayCopyResource desc format allowDepthStencil).mp hmem
  rw [Prod.mk.injEq] at heq
  have hcell := heq.2
  simp only [Subresource.cell, Level.cell, Cell.texel.injEq] at hcell
  have hbacking : s.backing = s'.backing := hcell.1
  have hsingle := not_twoAspects_of_split hsplit
  have hsPlane : s.plane = 1 := Subresource.inPlane_plane _
  rw [s.plane_eq_backing hsingle, s'.plane_eq_backing (hs' ▸ hsingle), hsPlane, hplane] at hbacking
  exact Nat.one_ne_zero hbacking

/-- Without planes the first and only aspect is the one of the subresource. -/
theorem textureResource_exact_of_one (hsplit : usesSplitPlaneBacking src.format = false)
    (hone : hasTwoAspects src.format = false) :
    (Copy.textureResource dst src desc format allowDepthStencil).Exact := by
  ext p
  change p ∈ writesOf (replayCopyResource (.texture dst) (.texture src)) ↔ _
  rw [mem_replayCopyResource desc format allowDepthStencil, mem_named_textureResource, hone]
  constructor
  · rintro ⟨d, s, hd, hs, hindex, -, aspect, haspect, hp⟩
    have haspectZero : aspect = 0 := Nat.lt_one_iff.mp haspect
    refine ⟨d, s, hd, hs, hindex, ?_⟩
    rw [s.aspect_eq_zero (hs ▸ hone), ← haspectZero]
    exact hp
  · rintro ⟨d, s, hd, hs, hindex, hp⟩
    have hplane := s.plane_lt
    rw [hs, logicalPlaneCount_eq_one hone hsplit] at hplane
    refine ⟨d, s, hd, hs, hindex, Nat.lt_one_iff.mp hplane, 0, Nat.one_pos, ?_⟩
    rw [s.aspect_eq_zero (hs ▸ hone)] at hp
    exact hp

omit format allowDepthStencil in
/-- One number stands for the same subresource of a plane in both textures. -/
theorem inPlane_index_eq {d s : Subresource query} (hd : d.resource = dst) (hs : s.resource = src)
    (hindex : d.index = s.index) {plane : Nat} (hpd : plane < logicalPlaneCount d.resource.format)
    (hps : plane < logicalPlaneCount s.resource.format) :
    (d.inPlane plane hpd).index = (s.inPlane plane hps).index := by
  simp only [Subresource.inPlane, hd, hs, hindex, TextureResource.perPlane_congr desc]

/-- With two aspects in a texture, the one that is copied along is the other plane. -/
theorem textureResource_exact_of_two (htwo : hasTwoAspects src.format = true) :
    (Copy.textureResource dst src desc format allowDepthStencil).Exact := by
  have hplanes := logicalPlaneCount_of_twoAspects htwo
  ext p
  change p ∈ writesOf (replayCopyResource (.texture dst) (.texture src)) ↔ _
  rw [mem_replayCopyResource desc format allowDepthStencil, mem_named_textureResource, htwo]
  constructor
  · rintro ⟨d, s, hd, hs, hindex, -, aspect, haspect, hp⟩
    have htwoDst : hasTwoAspects d.resource.format = true := by rw [hd, format, htwo]
    have htwoSrc : hasTwoAspects s.resource.format = true := by rw [hs, htwo]
    have hltSrc : aspect < logicalPlaneCount s.resource.format := by
      rw [hs, hplanes]
      exact haspect
    have hltDst : aspect < logicalPlaneCount d.resource.format := by
      rw [hd, format, hplanes]
      exact haspect
    have haspectEq : (s.inPlane aspect hltSrc).aspect = aspect :=
      (if_pos htwoSrc).trans s.inPlane_plane
    refine ⟨d.inPlane aspect hltDst, s.inPlane aspect hltSrc, hd, hs,
      inPlane_index_eq desc hd hs hindex _ _, ?_⟩
    rw [haspectEq, inPlane_copies htwoDst htwoSrc]
    exact hp
  · rintro ⟨d, s, hd, hs, hindex, hp⟩
    have htwoDst : hasTwoAspects d.resource.format = true := by rw [hd, format, htwo]
    have htwoSrc : hasTwoAspects s.resource.format = true := by rw [hs, htwo]
    have hltSrc : 0 < logicalPlaneCount s.resource.format := Nat.zero_lt_of_lt s.plane_lt
    have hltDst : 0 < logicalPlaneCount d.resource.format := Nat.zero_lt_of_lt d.plane_lt
    have haspect : s.aspect < 2 := by
      have hplane := s.plane_lt
      rw [hs, hplanes] at hplane
      rw [Subresource.aspect, if_pos htwoSrc]
      exact hplane
    refine ⟨d.inPlane 0 hltDst, s.inPlane 0 hltSrc, hd, hs,
      inPlane_index_eq desc hd hs hindex _ _, s.inPlane_plane, s.aspect, haspect, ?_⟩
    rw [inPlane_copies htwoDst htwoSrc]
    exact hp

theorem textureResource_exact (hsplit : usesSplitPlaneBacking src.format = false) :
    (Copy.textureResource dst src desc format allowDepthStencil).Exact := by
  cases htwo : hasTwoAspects src.format with
  | false => exact textureResource_exact_of_one desc format allowDepthStencil hsplit htwo
  | true => exact textureResource_exact_of_two desc format allowDepthStencil htwo

end Resources

theorem bufferResource_exact (dst src : BufferResource) (width : dst.width = src.width) :
    (Copy.bufferResource dst src width : Copy query).Exact := by
  rw [Copy.Exact, Copy.commands, replayCopyResource, mem_writesOf_singleton, width, Nat.min_self]
  rfl

/-! ## The result -/

namespace Copy

/-- A device with one format, of four bytes a texel. -/
def fourBytes : FormatQuery := fun _ => some ⟨.other 70, 4, false⟩

/-- A texture of four texels. -/
def fourTexels : TextureResource fourBytes where
  desc := ⟨.texture2D, 4, 1, 1, 1, 1, 0, .unknown⟩
  format := .other 28
  allowDepthStencil := false
  textures := fun _ => ⟨.other 70, 4, false⟩
  kept := ⟨by decide, by decide, by decide⟩
  line := by decide
  width_lt := by decide
  levels := by decide
  created := fun _ _ => rfl
  aspects := by decide
  bytes := by decide

/-- Its subresource. -/
def fourTexelsLevel : Subresource fourBytes where
  resource := fourTexels
  index := 0
  lt := by decide

/-- A footprint of four texels. -/
def fourTexelsFootprint : PlacedFootprint where
  buffer := ⟨256, 0, by decide⟩
  footprint := ⟨0, .other 28, 4, 1, 1, 256⟩
  aligned := by decide
  rowPitch_pos := by decide
  offset_lt := by decide
  height_lt := by decide

theorem fourTexels_cells : fourTexelsFootprint.cells fourBytes = some fourTexelsLevel.cells := rfl

theorem secondTexel_inside :
    ∀ b ∈ some (⟨1, 0, 0, 2, 1, 1⟩ : Box),
      BoxInside fourTexelsLevel.cells.block fourTexelsFootprint.extent b := by
  rintro b ⟨⟩
  exact ⟨by decide, by decide, by decide, by decide, by decide, by decide⟩

end Copy

end CopyRegion

end Dxmt
