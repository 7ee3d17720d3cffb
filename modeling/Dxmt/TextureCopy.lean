import Dxmt.ByteWords
import Dxmt.RowCopy

/-!
# Texture upload and readback by the CPU: `WriteToSubresource`, `ReadFromSubresource`

`WriteToSubresource` and `ReadFromSubresource` copy the rows of a box between the memory of the
application and a subresource. A linear texture is mapped and its rows are copied in place; else the
rows go through a staging buffer and a blit. `UINT` and `UINT64` arithmetic is `u32` and `u64` of
exact numbers.

The tables of formats are a parameter. A subresource is a function on blocks and bytes, in a mapped
texture its memory. A blit copies the blocks of its size between a buffer and a level that the
texture has, and the shaders that copy a plane take the bytes as they are.

Result: `contract_iff_fits`. The copies stay in their buffers and undo each other exactly when the
32-bit sizes and offsets of the subresource, the staging buffer and the two memories of the
application are exact, the blit has a level to copy, and a plane with a copy of its own is in a
texture that has plane views.

Source: `d3d12_resource.cpp`, `dxmt_command.cpp:600-743`.
-/

namespace Dxmt

namespace TextureCopy

open RowCopy

/-- A value kept in 32 bits. -/
def u32 (n : Nat) : Nat := n % 2 ^ 32

/-- A value kept in 64 bits. -/
def u64 (n : Nat) : Nat := n % 2 ^ 64

theorem u32_of_lt {n : Nat} (h : n < 2 ^ 32) : u32 n = n := Nat.mod_eq_of_lt h

theorem u64_of_lt {n : Nat} (h : n < 2 ^ 64) : u64 n = n := Nat.mod_eq_of_lt h

theorem u32_lt (n : Nat) : u32 n < 2 ^ 32 := Nat.mod_lt _ (by decide)

/-! ## Resources and formats -/

/-- `D3D12_RESOURCE_DIMENSION`, the unknown one left out. -/
inductive ResourceDimension
  | buffer
  | texture1D
  | texture2D
  | texture3D
  deriving DecidableEq

/-- `D3D12_TEXTURE_LAYOUT`. -/
inductive TextureLayout
  | unknown
  | rowMajor
  | undefinedSwizzle64KB
  | standardSwizzle64KB
  deriving DecidableEq

/-- `D3D12_RESOURCE_DESC`; the format is given by its traits. -/
structure ResourceDesc where
  dimension : ResourceDimension
  width : BitVec 64
  height : Word
  depthOrArraySize : BitVec 16
  mipLevels : BitVec 16
  sampleCount : Word
  sampleQuality : Word
  layout : TextureLayout

/-- What `MTLQueryDXGIFormat` says about the texels: the bytes of a texel, or of a block. -/
structure TexelFormat where
  blockCompressed : Bool
  bytes : Nat
  /-- The blocks of the table have 8 or 16 bytes. -/
  block : blockCompressed → 8 ≤ bytes

/-- `DXGIFormatPlaneTraits`, with the answer for the footprint format. -/
structure PlaneTraits where
  footprint : Option TexelFormat
  elementSize : Nat
  subsampleXLog2 : Nat
  subsampleYLog2 : Nat

/-- `DXGIFormatTraits`, with the answer for the format itself. `planar` says that the pixel format
has both depth and stencil. -/
structure FormatTraits where
  unknown : Bool
  mask : Bool
  video : Bool
  depthStencil : Bool
  planar : Bool
  format : Option TexelFormat
  planeCount : Nat
  planes : Nat → PlaneTraits
  /-- The planes of the table with an element size of their own are not block-compressed. -/
  plain : ∀ plane, ∀ f ∈ (if video then (planes plane).footprint else format), f.blockCompressed →
    (planes plane).elementSize = 0

/-- `IsSupportedSampleCount`. -/
def isSupportedSampleCount (count : Nat) : Bool :=
  count = 1 || count = 2 || count = 4 || count = 8

/-- The checks of `IsSupportedResourceDesc` on a texture, by dimension. -/
def isSupportedDimension (desc : ResourceDesc) : Bool :=
  match desc.dimension with
  | .texture1D =>
    if desc.height ≠ 1 || desc.sampleCount ≠ 1 then false
    else if desc.layout = .rowMajor then
      desc.depthOrArraySize = 1 && desc.mipLevels.toNat ≤ 1
    else true
  | .texture2D =>
    if desc.layout = .rowMajor then
      !(desc.sampleCount ≠ 1 || desc.depthOrArraySize ≠ 1 || 1 < desc.mipLevels.toNat)
    else !(1 < desc.sampleCount.toNat && desc.mipLevels ≠ 1)
  | .texture3D => !(desc.sampleCount ≠ 1 || desc.layout = .rowMajor)
  | .buffer => false

/-- `IsSupportedResourceDesc`: the descriptions a resource is created from. -/
def isSupportedResourceDesc (desc : ResourceDesc) (traits : FormatTraits) : Bool :=
  if desc.width = 0 || desc.height = 0 || desc.depthOrArraySize = 0 then false
  else if desc.sampleCount = 0 then false
  else if !isSupportedSampleCount desc.sampleCount.toNat || desc.sampleQuality ≠ 0 then false
  else if desc.dimension = .buffer then
    desc.height = 1 && desc.depthOrArraySize = 1 && desc.mipLevels = 1 && traits.unknown &&
      desc.sampleCount = 1 && desc.sampleQuality = 0 && desc.layout = .rowMajor
  else if traits.unknown then false
  else if traits.mask then false
  else if traits.video && (desc.dimension ≠ .texture2D || desc.sampleCount ≠ 1 ||
      desc.depthOrArraySize = 0 || desc.width.getLsbD 0 || desc.height.getLsbD 0) then false
  else isSupportedDimension desc

/-! ## Subresources -/

/-- The loop of `GetMaxMipLevels`. -/
def countMipLevels : Nat → Nat → Nat → Nat → Nat → Nat
  | 0, _, _, _, levels => levels
  | fuel + 1, width, height, depth, levels =>
    if 1 < width || 1 < height || 1 < depth then
      countMipLevels fuel (max 1 (width >>> 1)) (max 1 (height >>> 1)) (max 1 (depth >>> 1))
        (levels + 1)
    else levels

/-- `GetMaxMipLevels`: a size of 64 bits is 1 after 64 turns. -/
def getMaxMipLevels (desc : ResourceDesc) : Nat :=
  if desc.dimension = .buffer then 1
  else
    countMipLevels 64 (max 1 desc.width.toNat)
      (if desc.dimension = .texture1D then 1 else max 1 desc.height.toNat)
      (if desc.dimension = .texture3D then max 1 desc.depthOrArraySize.toNat else 1) 1

/-- `GetMipLevels`: zero asks for the whole chain. -/
def getMipLevels (desc : ResourceDesc) : Nat :=
  if desc.mipLevels ≠ 0 then desc.mipLevels.toNat else getMaxMipLevels desc

/-- `GetTextureLogicalPlaneCount`: at least one plane. -/
def getTextureLogicalPlaneCount (traits : FormatTraits) : Nat :=
  max 1 traits.planeCount

/-- `GetTextureSubresourcesPerPlane`: a 3D texture has no layers. -/
def getTextureSubresourcesPerPlane (desc : ResourceDesc) : Nat :=
  u32 (getMipLevels desc * if desc.dimension = .texture3D then 1 else desc.depthOrArraySize.toNat)

/-- `GetTextureSubresourceCount`: the subresources of all planes. -/
def getTextureSubresourceCount (desc : ResourceDesc) (traits : FormatTraits) : Nat :=
  u32 (getTextureSubresourcesPerPlane desc * getTextureLogicalPlaneCount traits)

/-- `GetTextureSubresourcePlane`: planes are the slowest coordinate. -/
def getTextureSubresourcePlane (desc : ResourceDesc) (subResource : Nat) : Nat :=
  if getTextureSubresourcesPerPlane desc = 0 then 0
  else subResource / getTextureSubresourcesPerPlane desc

/-- `GetTextureSubresourcePlaneLocalIndex`: the index within the plane. -/
def getTextureSubresourcePlaneLocalIndex (desc : ResourceDesc) (subResource : Nat) : Nat :=
  if getTextureSubresourcesPerPlane desc = 0 then subResource
  else subResource % getTextureSubresourcesPerPlane desc

/-- `GetTextureSubresourceMipLevel`: mips are the fastest coordinate. -/
def getTextureSubresourceMipLevel (desc : ResourceDesc) (subResource : Nat) : Nat :=
  getTextureSubresourcePlaneLocalIndex desc subResource % getMipLevels desc

/-- `IsCpuLinearTextureSubresource`: the one shape whose memory the CPU sees as rows. -/
def isCpuLinearTextureSubresource (desc : ResourceDesc) (subResource : Nat) : Bool :=
  desc.dimension = .texture2D && subResource = 0 && getMipLevels desc = 1 &&
    desc.depthOrArraySize = 1 && desc.sampleCount = 1

/-- A call is rejected with an error, or it does what the language does not define, or it goes on.
-/
inductive Outcome (α : Type)
  | rejected
  | undefined
  | ok (value : α)

/-- The extent, the blocks and the pitches of one subresource. -/
structure TextureSubresourceLayout where
  width : Nat
  height : Nat
  depth : Nat
  blockWidth : Nat
  blockHeight : Nat
  rowCount : Nat
  rowSize : Nat
  rowPitch : Nat
  slicePitch : Nat
  elementSize : Nat

/-- A shift of a number of some bits, which has to be less than the bits. -/
def shiftRight (bits n shift : Nat) : Option Nat :=
  if shift < bits then some (n >>> shift) else none

/-- The width, the height and the depth of a subresource. -/
def subresourceExtent (desc : ResourceDesc) (mip subsampleX subsampleY : Nat) :
    Option (Nat × Nat × Nat) :=
  (shiftRight 64 desc.width.toNat (mip + subsampleX)).bind fun width =>
    (if desc.dimension = .texture1D then some 1
      else shiftRight 32 desc.height.toNat (mip + subsampleY)).bind fun height =>
        (if desc.dimension = .texture3D then shiftRight 32 desc.depthOrArraySize.toNat mip
          else some 1).map fun depth => (max 1 width, max 1 height, max 1 depth)

/-- `D3D12_TEXTURE_DATA_PITCH_ALIGNMENT`. -/
def kTextureDataPitchAlignment : Nat := 256

/-- `Align` to the pitch alignment, a power of two. -/
def alignPitch (n : Nat) : Nat :=
  u64 (n + kTextureDataPitchAlignment - 1) / kTextureDataPitchAlignment * kTextureDataPitchAlignment

/-- The sizes of a subresource of some extent. -/
def layoutOfExtent (block elementSize width height depth : Nat) : TextureSubresourceLayout :=
  let rowCount := max 1 (u32 (height + block - 1) / block)
  let rowSize := u64 (u64 (width + block - 1) / block * elementSize)
  let rowPitch := u32 (alignPitch rowSize)
  { width, height, depth
    blockWidth := block
    blockHeight := block
    rowCount, rowSize, rowPitch
    slicePitch := u32 (rowPitch * rowCount)
    elementSize }

/-- The element size of a plane: its own, or that of the format. -/
def planeElementSize (traits : FormatTraits) (plane : Nat) (format : TexelFormat) : Nat :=
  if plane < traits.planeCount ∧ (traits.planes plane).elementSize ≠ 0 then
    (traits.planes plane).elementSize
  else format.bytes

/-- `GetTextureSubresourceLayout`. -/
def getTextureSubresourceLayout (desc : ResourceDesc) (traits : FormatTraits) (subResource : Nat) :
    Outcome TextureSubresourceLayout :=
  if getTextureSubresourceCount desc traits ≤ subResource then .rejected
  else
    let plane := getTextureSubresourcePlane desc subResource
    if getTextureLogicalPlaneCount traits ≤ plane then .rejected
    else
      match if traits.video then (traits.planes plane).footprint else traits.format with
      | none => .rejected
      | some format =>
        let known := plane < traits.planeCount
        let mip := getTextureSubresourceMipLevel desc subResource
        match subresourceExtent desc mip (if known then (traits.planes plane).subsampleXLog2 else 0)
            (if known then (traits.planes plane).subsampleYLog2 else 0) with
        | none => .undefined
        | some (width, height, depth) =>
          if planeElementSize traits plane format = 0 then .rejected
          else
            .ok (layoutOfExtent (if format.blockCompressed then 4 else 1)
              (planeElementSize traits plane format) width height depth)

/-! ## Boxes and pitches -/

/-- `D3D12_BOX`. -/
structure Box where
  left : Word
  top : Word
  front : Word
  right : Word
  bottom : Word
  back : Word

/-- The box of the call, or the whole subresource. -/
def requestedBox (layout : TextureSubresourceLayout) : Option Box → Box
  | some box => box
  | none =>
    ⟨0, 0, 0, BitVec.ofNat 32 layout.width, BitVec.ofNat 32 layout.height,
      BitVec.ofNat 32 layout.depth⟩

/-- `NormalizeTextureBox`: refuses an empty box, one outside the texture and one off the blocks. -/
def normalizeTextureBox (layout : TextureSubresourceLayout) (requested : Option Box) : Option Box :=
  let box := requestedBox layout requested
  if box.right.toNat ≤ box.left.toNat || box.bottom.toNat ≤ box.top.toNat ||
      box.back.toNat ≤ box.front.toNat then none
  else if layout.width < box.right.toNat || layout.height < box.bottom.toNat ||
      layout.depth < box.back.toNat then none
  else if box.left.toNat % layout.blockWidth ≠ 0 || box.top.toNat % layout.blockHeight ≠ 0 then none
  else if box.right.toNat ≠ layout.width && box.right.toNat % layout.blockWidth ≠ 0 then none
  else if box.bottom.toNat ≠ layout.height && box.bottom.toNat % layout.blockHeight ≠ 0 then none
  else some box

/-- `TextureRowOffset`: where row `i.2` of slice `i.1` of the box starts in the texture's memory. -/
def textureRowOffset (box : Box) (layout : TextureSubresourceLayout) (i : Nat × Nat) : Nat :=
  let blockX := box.left.toNat / layout.blockWidth
  let blockY := u32 (box.top.toNat / layout.blockHeight + i.2)
  u64 (u32 (box.front.toNat + i.1) * layout.slicePitch + blockY * layout.rowPitch +
    blockX * layout.elementSize)

/-- `TextureBoxRowCount`: rows of blocks in one slice of the box. -/
def textureBoxRowCount (box : Box) (layout : TextureSubresourceLayout) : Nat :=
  max 1 (u32 (box.bottom.toNat - box.top.toNat + layout.blockHeight - 1) / layout.blockHeight)

/-- `TextureBoxRowSize`: bytes in one row of blocks of the box. -/
def textureBoxRowSize (box : Box) (layout : TextureSubresourceLayout) : Nat :=
  u64 (u32 (box.right.toNat - box.left.toNat + layout.blockWidth - 1) / layout.blockWidth *
    layout.elementSize)

/-- `TextureBoxDepthCount`: slices of the box. -/
def textureBoxDepthCount (box : Box) : Nat :=
  box.back.toNat - box.front.toNat

/-- The row pitch and the slice pitch of a memory. -/
structure Pitches where
  row : Nat
  slice : Nat

/-- The pitches are of type `UINT`. -/
def Pitches.InRange (pitches : Pitches) : Prop :=
  pitches.row < 2 ^ 32 ∧ pitches.slice < 2 ^ 32

/-- `EffectiveSlicePitch`: a zero slice pitch stands for packed rows. -/
def effectiveSlicePitch (pitches : Pitches) (rowCount : Nat) : Nat :=
  if pitches.slice ≠ 0 then pitches.slice else u32 (pitches.row * rowCount)

/-- The end of the last row of a slice, as the validation computes it. -/
def lastRowEnd (rowSize rowCount : Nat) (pitches : Pitches) : Nat :=
  u64 (u32 (pitches.row * (rowCount - 1)) + rowSize)

/-- `ValidateTextureCopyPitches`: rows and slices do not overlap in the caller's memory. -/
def validateTextureCopyPitches (rowSize rowCount depthCount : Nat) (pitches : Pitches) : Bool :=
  !(pitches.row < rowSize) &&
    !(pitches.slice ≠ 0 && 1 < rowCount && pitches.slice < lastRowEnd rowSize rowCount pitches) &&
    !(rowCount = 1 && pitches.slice ≠ 0 && pitches.slice < rowSize) &&
    !(1 < depthCount && pitches.slice < lastRowEnd rowSize rowCount pitches)

/-- `z * slice + row * pitch` in the memory of the application or the staging buffer. -/
def rowOffset (slicePitch rowPitch : Nat) (i : Nat × Nat) : Nat :=
  u32 (i.1 * slicePitch) + u32 (i.2 * rowPitch)

/-- `CopyTextureRowsToMemory`. -/
def copyTextureRowsToMemory (dst : Nat → Byte) (dstPitches : Pitches) (src : Nat → Byte)
    (srcPitches : Pitches) (rowSize rowCount depthCount : Nat) : Option (Nat → Byte) :=
  if validateTextureCopyPitches rowSize rowCount depthCount srcPitches &&
      validateTextureCopyPitches rowSize rowCount depthCount dstPitches then
    some (copyRows dst src (rowOffset (effectiveSlicePitch dstPitches rowCount) dstPitches.row)
      (rowOffset (effectiveSlicePitch srcPitches rowCount) srcPitches.row) rowSize
      (grid depthCount rowCount))
  else none

/-! ## Copies -/

/-- A subresource on a device of its own: block column, block row, slice, byte of the block. -/
abbrev Texels := Nat → Nat → Nat → Nat → Byte

/-- Where a subresource is: in the mapped memory of a linear texture or in a texture of the device.
-/
inductive Store
  | mapped (memory : Nat → Byte)
  | device (texels : Texels)

/-- A byte of a block. Metal reads a linear texture at the row pitch that it was created with. -/
def Store.texel (layout : TextureSubresourceLayout) : Store → Texels
  | .mapped memory => fun x y _ k => memory (y * layout.rowPitch + x * layout.elementSize + k)
  | .device texels => texels

/-- The blocks of a blit: the origin and the size of the box, in blocks. -/
structure BlitRegion where
  x : Nat
  y : Nat
  z : Nat
  columns : Nat
  rows : Nat
  slices : Nat

/-- The block `(x, y, z)` lies in the region. -/
def BlitRegion.Contains (region : BlitRegion) (x y z : Nat) : Prop :=
  (region.x ≤ x ∧ x < region.x + region.columns) ∧ (region.y ≤ y ∧ y < region.y + region.rows) ∧
    region.z ≤ z ∧ z < region.z + region.slices

instance (region : BlitRegion) (x y z : Nat) : Decidable (region.Contains x y z) :=
  inferInstanceAs (Decidable (_ ∧ _ ∧ _ ∧ _))

/-- The bytes of a buffer that a blit has for a block. -/
structure BufferRows where
  bytesPerRow : Nat
  bytesPerImage : Nat
  elementSize : Nat

/-- Where the blit finds the block `(x, y, z)` in the buffer. -/
def BufferRows.offset (rows : BufferRows) (region : BlitRegion) (x y z : Nat) : Nat :=
  (z - region.z) * rows.bytesPerImage + (y - region.y) * rows.bytesPerRow +
    (x - region.x) * rows.elementSize

/-- `WMTBlitCommandCopyFromBufferToTexture`, and `copyPlaneFromBuffer` for a plane. -/
def copyFromBufferToTexture (rows : BufferRows) (region : BlitRegion) (buffer : Nat → Byte)
    (texels : Texels) : Texels := fun x y z k =>
  if region.Contains x y z ∧ k < rows.elementSize then buffer (rows.offset region x y z + k)
  else texels x y z k

/-- `WMTBlitCommandCopyFromTextureToBuffer`, and `copyPlaneToBuffer`, over what the buffer held. -/
def copyFromTextureToBuffer (rows : BufferRows) (region : BlitRegion) (texels : Texels)
    (buffer : Nat → Byte) : Nat → Byte :=
  storeRows buffer (strided rows.bytesPerImage rows.bytesPerRow) (region.columns * rows.elementSize)
    (fun i j => texels (region.x + j / rows.elementSize) (region.y + i.2) (region.z + i.1)
      (j % rows.elementSize))
    (grid region.slices region.rows)

/-- A call of `WriteToSubresource` and one of `ReadFromSubresource` for a box of a subresource. -/
structure Transfer where
  desc : ResourceDesc
  traits : FormatTraits
  defaultHeap : Bool
  subResource : Nat
  box : Option Box
  write : Pitches
  read : Pitches
  write_lt : write.InRange
  read_lt : read.InRange

namespace Transfer

/-- The texture is linear, and its memory is mapped for this subresource. -/
def mapped (c : Transfer) : Bool :=
  !c.defaultHeap && getTextureLogicalPlaneCount c.traits = 1 &&
    isCpuLinearTextureSubresource c.desc 0 && isCpuLinearTextureSubresource c.desc c.subResource

/-- The planes of a depth and stencil format go through a copy of their own. -/
def planar (c : Transfer) : Bool :=
  c.traits.depthStencil && c.traits.planar

/-- The mip level of the subresource. -/
def mip (c : Transfer) : Nat :=
  getTextureSubresourceMipLevel c.desc c.subResource

/-- The level of the blit is one that the texture has, and the texture has one sample for each
texel. -/
def targetExists (c : Transfer) : Bool :=
  c.mip < min (getMipLevels c.desc) (getMaxMipLevels c.desc) && c.desc.sampleCount = 1

/-- The texture types for which `copyPlaneFromBuffer` and `CreateDepthStencilPlaneReadView` make a
view of a plane, as `GetTextureType` has them. -/
def hasPlaneView (c : Transfer) : Bool :=
  c.desc.dimension ≠ .texture3D && c.desc.sampleCount.toNat ≤ 1

/-- The layout and the box of a call. -/
def prepare (c : Transfer) : Outcome (TextureSubresourceLayout × Box) :=
  match getTextureSubresourceLayout c.desc c.traits c.subResource with
  | .rejected => .rejected
  | .undefined => .undefined
  | .ok layout =>
    match normalizeTextureBox layout c.box with
    | none => .rejected
    | some box => .ok (layout, box)

/-- What is checked behind the box, for the pitches of one of the calls. -/
def accepts (c : Transfer) (layout : TextureSubresourceLayout) (box : Box) (pitches : Pitches) :
    Bool :=
  validateTextureCopyPitches (textureBoxRowSize box layout) (textureBoxRowCount box layout)
      (textureBoxDepthCount box) pitches &&
    !(!c.mapped && c.planar && (textureBoxDepthCount box ≠ 1 ||
      1 < getTextureSubresourcePlane c.desc c.subResource))

/-- Bytes of one slice in the staging buffer. -/
def stagingSlicePitch (layout : TextureSubresourceLayout) (box : Box) : Nat :=
  u32 (layout.rowPitch * textureBoxRowCount box layout)

/-- The length of the staging buffer. -/
def stagingLength (c : Transfer) (layout : TextureSubresourceLayout) (box : Box) : Nat :=
  if c.planar then stagingSlicePitch layout box
  else u32 (stagingSlicePitch layout box * textureBoxDepthCount box)

/-- The pitches handed to the blit; Metal wants no slice pitch outside 3D textures. -/
def bufferRows (c : Transfer) (layout : TextureSubresourceLayout) (box : Box) : BufferRows where
  bytesPerRow := layout.rowPitch
  bytesPerImage := if c.desc.dimension = .texture3D then stagingSlicePitch layout box else 0
  elementSize := layout.elementSize

/-- The box in blocks. Metal copies the blocks that a size in texels reaches into. -/
def region (c : Transfer) (layout : TextureSubresourceLayout) (box : Box) : BlitRegion where
  x := box.left.toNat / layout.blockWidth
  y := box.top.toNat / layout.blockHeight
  z := if c.desc.dimension = .texture3D then box.front.toNat else 0
  columns := (box.right.toNat - box.left.toNat + layout.blockWidth - 1) / layout.blockWidth
  rows := (box.bottom.toNat - box.top.toNat + layout.blockHeight - 1) / layout.blockHeight
  slices := textureBoxDepthCount box

/-- The offsets of the rows in the memory of the application. -/
def memoryOffset (layout : TextureSubresourceLayout) (box : Box) (pitches : Pitches) :
    Nat × Nat → Nat :=
  rowOffset (effectiveSlicePitch pitches (textureBoxRowCount box layout)) pitches.row

/-- Where a row of the box starts in the staging buffer. -/
def stagingOffset (layout : TextureSubresourceLayout) (box : Box) : Nat × Nat → Nat :=
  rowOffset (stagingSlicePitch layout box) layout.rowPitch

/-- The rows of the box, slice by slice. -/
def rowsOf (layout : TextureSubresourceLayout) (box : Box) : List (Nat × Nat) :=
  grid (textureBoxDepthCount box) (textureBoxRowCount box layout)

/-- `WriteMappedTextureRows` and `WriteTextureRowsViaBlit`, behind the checks. -/
def writeTextureRows (c : Transfer) (layout : TextureSubresourceLayout) (box : Box)
    (src : Nat → Byte) :
    Store → Outcome Store
  | .mapped memory =>
    .ok (.mapped (copyRows memory src (textureRowOffset box layout)
      (memoryOffset layout box c.write)
      (textureBoxRowSize box layout) (rowsOf layout box)))
  | .device texels =>
    -- `copyPlaneFromBuffer` returns, and the call succeeds
    if c.planar && !c.hasPlaneView then .ok (.device texels)
    else if !c.targetExists then .undefined
    else
      let staging := copyRows (fun _ => 0) src (stagingOffset layout box)
        (memoryOffset layout box c.write) (textureBoxRowSize box layout) (rowsOf layout box)
      .ok (.device (copyFromBufferToTexture (c.bufferRows layout box)
        (c.region layout box) staging texels))

/-- `ReadMappedTextureRows` and `ReadTextureRowsViaBlit`, behind the checks, with what the new
buffer held. -/
def readTextureRows (c : Transfer) (layout : TextureSubresourceLayout) (box : Box)
    (dst : Nat → Byte) (buffer : Nat → Byte) : Store → Outcome (Nat → Byte)
  | .mapped memory =>
    .ok (copyRows dst memory (memoryOffset layout box c.read) (textureRowOffset box layout)
      (textureBoxRowSize box layout) (rowsOf layout box))
  | .device texels =>
    if c.planar && !c.hasPlaneView then .rejected
    else if !c.targetExists then .undefined
    else
      match copyTextureRowsToMemory dst c.read
          (copyFromTextureToBuffer (c.bufferRows layout box) (c.region layout box) texels buffer)
          ⟨layout.rowPitch, stagingSlicePitch layout box⟩ (textureBoxRowSize box layout)
          (textureBoxRowCount box layout) (textureBoxDepthCount box) with
      | none => .rejected
      | some dst => .ok dst

end Transfer

/-! ## The contract -/

namespace TextureSubresourceLayout

/-- The columns and rows of blocks of a subresource and its row pitch, as numbers. -/
def exactColumnCount (layout : TextureSubresourceLayout) : Nat :=
  (layout.width + layout.blockWidth - 1) / layout.blockWidth

/-- Rows of blocks of the subresource, without wrapping. -/
def exactRowCount (layout : TextureSubresourceLayout) : Nat :=
  (layout.height + layout.blockHeight - 1) / layout.blockHeight

/-- The aligned row pitch of the subresource, without wrapping. -/
def exactRowPitch (layout : TextureSubresourceLayout) : Nat :=
  (layout.exactColumnCount * layout.elementSize + kTextureDataPitchAlignment - 1) /
    kTextureDataPitchAlignment * kTextureDataPitchAlignment

end TextureSubresourceLayout

namespace Transfer

/-- The offsets of a call in a memory of the application. -/
structure MemoryContract (layout : TextureSubresourceLayout) (box : Box) (pitches : Pitches) :
    Prop where
  exactSlice : pitches.slice = 0 →
    effectiveSlicePitch pitches (textureBoxRowCount box layout) =
      pitches.row * textureBoxRowCount box layout
  exactSlices : ∀ z < textureBoxDepthCount box,
    u32 (z * effectiveSlicePitch pitches (textureBoxRowCount box layout)) =
      z * effectiveSlicePitch pitches (textureBoxRowCount box layout)
  exactRows : ∀ row < textureBoxRowCount box layout, u32 (row * pitches.row) = row * pitches.row
  inside : ∀ i ∈ rowsOf layout box, memoryOffset layout box pitches i +
    textureBoxRowSize box layout ≤
    textureBoxDepthCount box * effectiveSlicePitch pitches (textureBoxRowCount box layout)
  apart : Apart (memoryOffset layout box pitches) (textureBoxRowSize box layout) (rowsOf layout box)

/-- The offsets in the mapped memory of the texture or in the staging buffer. -/
def bufferOffset (c : Transfer) (layout : TextureSubresourceLayout) (box : Box) : Nat × Nat → Nat :=
  if c.mapped then textureRowOffset box layout else stagingOffset layout box

/-- The mapped memory has the bytes of a slice. -/
def bufferLength (c : Transfer) (layout : TextureSubresourceLayout) (box : Box) : Nat :=
  if c.mapped then layout.slicePitch else c.stagingLength layout box

/-- The pitches that the copy computes in 32 bits are the unbounded ones. -/
structure BufferContract (c : Transfer) (layout : TextureSubresourceLayout) (box : Box) : Prop where
  exactLayout : layout.slicePitch = layout.exactRowPitch * layout.exactRowCount
  exactStaging : c.mapped = false →
    stagingSlicePitch layout box = layout.rowPitch * textureBoxRowCount box layout
  exactSlices : c.mapped = false → ∀ z < textureBoxDepthCount box,
    u32 (z * stagingSlicePitch layout box) = z * stagingSlicePitch layout box
  exactRows : c.mapped = false → ∀ row < textureBoxRowCount box layout,
    u32 (row * layout.rowPitch) = row * layout.rowPitch
  inside : ∀ i ∈ rowsOf layout box,
    c.bufferOffset layout box i + textureBoxRowSize box layout ≤ c.bufferLength layout box
  apart : Apart (c.bufferOffset layout box) (textureBoxRowSize box layout) (rowsOf layout box)

/-- The rows are in memory that the CPU has mapped. -/
def isMapped : Store → Bool
  | .mapped _ => true
  | .device _ => false

/-- A box that is read back after it was written has what was written, and nothing else changes:
neither in the subresource nor in the memory that is read to. -/
def RoundTrip (c : Transfer) (layout : TextureSubresourceLayout) (box : Box) : Prop :=
  ∀ store, isMapped store = c.mapped → ∀ src dst buffer : Nat → Byte,
    ∃ store' dst', c.writeTextureRows layout box src store = .ok store' ∧
      c.readTextureRows layout box dst buffer store' = .ok dst' ∧
      (∀ i ∈ rowsOf layout box, ∀ j < textureBoxRowSize box layout,
        dst' (memoryOffset layout box c.read i + j) = src (memoryOffset layout box c.write i + j)) ∧
      (∀ a, (∀ i ∈ rowsOf layout box, ¬ (memoryOffset layout box c.read i ≤ a ∧
        a < memoryOffset layout box c.read i + textureBoxRowSize box layout)) → dst' a = dst a) ∧
      ∀ x y z k, x < layout.exactColumnCount → k < layout.elementSize → z < layout.depth →
        ¬ (c.region layout box).Contains x y z →
        store'.texel layout x y z k = store.texel layout x y z k

/-- What the copy needs of the layout and of both memories. -/
structure ContractFor (c : Transfer) (layout : TextureSubresourceLayout) (box : Box) : Prop where
  buffer : c.BufferContract layout box
  write : MemoryContract layout box c.write
  read : MemoryContract layout box c.read
  roundTrip : c.RoundTrip layout box

/-- The calls are accepted, as far as what they do is defined. -/
def Accepted (c : Transfer) : Prop :=
  match c.prepare with
  | .rejected => False
  | .undefined => True
  | .ok (layout, box) => c.accepts layout box c.write = true ∧ c.accepts layout box c.read = true

/-- The input is accepted, and its layout and its memories are in range. -/
def Contract (c : Transfer) : Prop :=
  match c.prepare with
  | .ok (layout, box) => c.ContractFor layout box
  | _ => False

/-- The 32-bit sizes of the memory of the application are exact. -/
structure PitchesFit (rowCount depthCount : Nat) (pitches : Pitches) : Prop where
  rows : (rowCount - 1) * pitches.row < 2 ^ 32
  slice : pitches.slice = 0 → pitches.row * rowCount < 2 ^ 32
  slices : (depthCount - 1) *
    (if pitches.slice ≠ 0 then pitches.slice else pitches.row * rowCount) < 2 ^ 32

/-- The slice of the subresource, the staging buffer and the offsets in the memory of the
application fit 32 bits, and a blit has a level with one sample for each texel, for a plane of a
texture that has plane views. -/
structure FitsFor (c : Transfer) (layout : TextureSubresourceLayout) (box : Box) : Prop where
  target : c.mapped = false → c.targetExists = true
  plane : c.mapped = false → c.planar = true → c.hasPlaneView = true
  subresource : layout.exactRowPitch * layout.exactRowCount < 2 ^ 32
  staging : c.mapped = false →
    layout.exactRowPitch * (c.region layout box).rows * (c.region layout box).slices < 2 ^ 32
  write : PitchesFit (c.region layout box).rows (c.region layout box).slices c.write
  read : PitchesFit (c.region layout box).rows (c.region layout box).slices c.read

/-- The condition of the contract, with the shifts of the extent defined. -/
def Fits (c : Transfer) : Prop :=
  match c.prepare with
  | .ok (layout, box) => c.FitsFor layout box
  | _ => False

end Transfer

/-! ## Layouts -/

/-- What `GetTextureSubresourceLayout` says of a layout that it gives. -/
structure LayoutFacts (desc : ResourceDesc) (layout : TextureSubresourceLayout) (block : Nat) :
    Prop where
  eq : layout = layoutOfExtent block layout.elementSize layout.width layout.height layout.depth
  block : block = 1 ∨ block = 4 ∧ 8 ≤ layout.elementSize
  element_pos : 0 < layout.elementSize
  width_pos : 0 < layout.width
  width_lt : layout.width < 2 ^ 64
  height_pos : 0 < layout.height
  depth_pos : 0 < layout.depth
  flat : desc.dimension ≠ .texture3D → layout.depth = 1

theorem shiftRight_le {bits n shift m : Nat} (h : shiftRight bits n shift = some m) : m ≤ n := by
  unfold shiftRight at h
  split at h
  · cases h
    rw [Nat.shiftRight_eq_div_pow]
    exact Nat.div_le_self _ _
  · cases h

theorem subresourceExtent_spec {desc : ResourceDesc} {mip x y width height depth : Nat}
    (h : subresourceExtent desc mip x y = some (width, height, depth)) :
    0 < width ∧ width < 2 ^ 64 ∧ 0 < height ∧ 0 < depth ∧
      (desc.dimension ≠ .texture3D → depth = 1) := by
  unfold subresourceExtent at h
  obtain ⟨w, hw, h⟩ := Option.bind_eq_some_iff.mp h
  obtain ⟨t, ht, h⟩ := Option.bind_eq_some_iff.mp h
  obtain ⟨d, hd, h⟩ := Option.map_eq_some_iff.mp h
  cases h
  have hle := shiftRight_le hw
  have hlt := desc.width.isLt
  refine ⟨by omega, by omega, by omega, by omega, fun hflat => ?_⟩
  rw [if_neg hflat] at hd
  cases hd
  rfl

theorem getTextureSubresourceLayout_spec {desc : ResourceDesc} {traits : FormatTraits} {sub : Nat}
    {layout : TextureSubresourceLayout}
    (h : getTextureSubresourceLayout desc traits sub = .ok layout) :
    ∃ block, LayoutFacts desc layout block := by
  unfold getTextureSubresourceLayout at h
  split at h
  · cases h
  dsimp only at h
  split at h
  · cases h
  cases hformat : (if traits.video then
      (traits.planes (getTextureSubresourcePlane desc sub)).footprint
      else traits.format) with
  | none =>
    rw [hformat] at h
    cases h
  | some format =>
    rw [hformat] at h
    dsimp only at h
    split at h
    · cases h
    case h_2 width height depth hextent =>
      obtain ⟨hw, hw', hh, hd, hflat⟩ := subresourceExtent_spec hextent
      split at h
      · cases h
      case isFalse hpos =>
        cases h
        have hplain := traits.plain _ format hformat
        refine ⟨_, ⟨rfl, ?_, Nat.pos_of_ne_zero hpos, hw, hw', hh, hd, hflat⟩⟩
        cases hblock : format.blockCompressed with
        | false => exact Or.inl rfl
        | true =>
          refine Or.inr ⟨rfl, ?_⟩
          show 8 ≤ planeElementSize traits _ format
          unfold planeElementSize
          rw [if_neg fun hc => hc.2 (hplain hblock)]
          exact format.block hblock

/-! ## A slice that fits -/

theorem le_alignPitch (n : Nat) :
    n ≤ (n + kTextureDataPitchAlignment - 1) / kTextureDataPitchAlignment *
      kTextureDataPitchAlignment := by
  unfold kTextureDataPitchAlignment
  omega

/-- The sizes of a layout, when the slice fits 32 bits: they are exact. -/
structure Exact (layout : TextureSubresourceLayout) : Prop where
  rowCount : layout.rowCount = layout.exactRowCount
  rowPitch : layout.rowPitch = layout.exactRowPitch
  slicePitch : layout.slicePitch = layout.exactRowPitch * layout.exactRowCount
  row_le : layout.exactColumnCount * layout.elementSize ≤ layout.exactRowPitch
  pitch_pos : 0 < layout.exactRowPitch
  pitch_lt : layout.exactRowPitch < 2 ^ 32
  width_le : layout.width ≤ layout.exactColumnCount * layout.blockWidth
  height_lt : layout.height < 2 ^ 26
  columns_lt : layout.exactColumnCount * layout.elementSize < 2 ^ 32
  slice_lt : layout.exactRowPitch * layout.exactRowCount < 2 ^ 32

namespace LayoutFacts

variable {desc : ResourceDesc} {layout : TextureSubresourceLayout} {block : Nat}

theorem blockWidth_eq (h : LayoutFacts desc layout block) : layout.blockWidth = block :=
  congrArg (·.blockWidth) h.eq

theorem blockHeight_eq (h : LayoutFacts desc layout block) : layout.blockHeight = block :=
  congrArg (·.blockHeight) h.eq

theorem rowCount_eq (h : LayoutFacts desc layout block) :
    layout.rowCount = max 1 (u32 (layout.height + block - 1) / block) :=
  congrArg (·.rowCount) h.eq

theorem rowSize_eq (h : LayoutFacts desc layout block) :
    layout.rowSize = u64 (u64 (layout.width + block - 1) / block * layout.elementSize) :=
  congrArg (·.rowSize) h.eq

theorem rowPitch_eq (h : LayoutFacts desc layout block) :
    layout.rowPitch = u32 (alignPitch layout.rowSize) :=
  (congrArg (·.rowPitch) h.eq).trans (congrArg (fun n => u32 (alignPitch n)) h.rowSize_eq.symm)

theorem slicePitch_eq (h : LayoutFacts desc layout block) :
    layout.slicePitch = u32 (layout.rowPitch * layout.rowCount) := by
  rw [h.eq]
  rfl

theorem exact (h : LayoutFacts desc layout block)
    (hfit : layout.exactRowPitch * layout.exactRowCount < 2 ^ 32) : Exact layout := by
  have hblock := h.block
  have hh := h.height_pos
  have hw := h.width_pos
  have hrows : 0 < layout.exactRowCount := by
    unfold TextureSubresourceLayout.exactRowCount
    rw [h.blockHeight_eq]
    rcases hblock with rfl | ⟨rfl, -⟩ <;> omega
  have hcolumns : 0 < layout.exactColumnCount := by
    unfold TextureSubresourceLayout.exactColumnCount
    rw [h.blockWidth_eq]
    rcases hblock with rfl | ⟨rfl, -⟩ <;> omega
  have hsize : 0 < layout.exactColumnCount * layout.elementSize :=
    Nat.mul_pos hcolumns h.element_pos
  have hrow : layout.exactColumnCount * layout.elementSize ≤ layout.exactRowPitch := le_alignPitch _
  have halign : 256 ≤ layout.exactRowPitch := by
    unfold TextureSubresourceLayout.exactRowPitch kTextureDataPitchAlignment
    omega
  have hpitch : layout.exactRowPitch < 2 ^ 32 :=
    Nat.lt_of_le_of_lt (Nat.le_mul_of_pos_right _ hrows) hfit
  have hcount : layout.exactRowCount < 2 ^ 24 := by
    have := Nat.mul_le_mul_right layout.exactRowCount halign
    omega
  have hcolumns_le : layout.exactColumnCount ≤ layout.exactColumnCount * layout.elementSize :=
    Nat.le_mul_of_pos_right _ h.element_pos
  have hheight_lt : layout.height < 2 ^ 26 := by
    unfold TextureSubresourceLayout.exactRowCount at hcount
    rw [h.blockHeight_eq] at hcount
    rcases hblock with rfl | ⟨rfl, -⟩ <;> omega
  have hwidth_le : layout.width ≤ layout.exactColumnCount * layout.blockWidth := by
    unfold TextureSubresourceLayout.exactColumnCount
    rw [h.blockWidth_eq]
    rcases hblock with rfl | ⟨rfl, -⟩ <;> omega
  have hwidth_lt : layout.width < 2 ^ 34 := by
    rw [h.blockWidth_eq] at hwidth_le
    rcases hblock with rfl | ⟨rfl, -⟩ <;> omega
  have hrowCount : layout.rowCount = layout.exactRowCount := by
    have hlt : layout.height + block - 1 < 2 ^ 32 := by
      rcases hblock with rfl | ⟨rfl, -⟩ <;> omega
    rw [h.rowCount_eq, u32_of_lt hlt]
    unfold TextureSubresourceLayout.exactRowCount at hrows ⊢
    rw [h.blockHeight_eq] at hrows ⊢
    exact Nat.max_eq_right hrows
  have hrowSize : layout.rowSize = layout.exactColumnCount * layout.elementSize := by
    have hlt : layout.width + block - 1 < 2 ^ 64 := by
      rcases hblock with rfl | ⟨rfl, -⟩ <;> omega
    rw [h.rowSize_eq, u64_of_lt hlt]
    unfold TextureSubresourceLayout.exactColumnCount at hrow ⊢
    rw [h.blockWidth_eq] at hrow ⊢
    exact u64_of_lt (by omega)
  have hrowPitch : layout.rowPitch = layout.exactRowPitch := by
    rw [h.rowPitch_eq, hrowSize, alignPitch,
      u64_of_lt (by unfold kTextureDataPitchAlignment; omega)]
    exact u32_of_lt hpitch
  have hslice : layout.slicePitch = layout.exactRowPitch * layout.exactRowCount := by
    rw [h.slicePitch_eq, hrowPitch, hrowCount]
    exact u32_of_lt hfit
  exact ⟨hrowCount, hrowPitch, hslice, hrow, by omega, hpitch, hwidth_le, hheight_lt, by omega,
      hfit⟩

end LayoutFacts

/-! ## Boxes -/

/-- A box that `NormalizeTextureBox` accepts. -/
structure BoxAccepted (layout : TextureSubresourceLayout) (box : Box) : Prop where
  columns : box.left.toNat < box.right.toNat
  rows : box.top.toNat < box.bottom.toNat
  slices : box.front.toNat < box.back.toNat
  right_le : box.right.toNat ≤ layout.width
  bottom_le : box.bottom.toNat ≤ layout.height
  back_le : box.back.toNat ≤ layout.depth
  left_block : box.left.toNat % layout.blockWidth = 0
  top_block : box.top.toNat % layout.blockHeight = 0

theorem normalizeTextureBox_spec {layout : TextureSubresourceLayout} {requested : Option Box}
    {box : Box} (h : normalizeTextureBox layout requested = some box) : BoxAccepted layout box := by
  unfold normalizeTextureBox at h
  dsimp only at h
  split at h
  · cases h
  case isFalse hordered =>
    split at h
    · cases h
    case isFalse hinside =>
      split at h
      · cases h
      case isFalse hblocks =>
        split at h
        · cases h
        · split at h
          · cases h
          · cases h
            simp only [Bool.or_eq_true, decide_eq_true_eq, not_or, Nat.not_le, Nat.not_lt,
              Decidable.not_not] at hordered hinside hblocks
            exact ⟨hordered.1.1, hordered.1.2, hordered.2, hinside.1.1, hinside.1.2, hinside.2,
              hblocks.1, hblocks.2⟩

namespace Transfer

variable {c : Transfer} {layout : TextureSubresourceLayout} {box : Box}

/-- What the copies use of a call whose slice fits 32 bits. -/
structure Ready (c : Transfer) (layout : TextureSubresourceLayout) (box : Box) : Prop where
  exact : Exact layout
  element_pos : 0 < layout.elementSize
  rowCount : textureBoxRowCount box layout = (c.region layout box).rows
  rowSize : textureBoxRowSize box layout = (c.region layout box).columns * layout.elementSize
  rows_pos : 0 < (c.region layout box).rows
  columns_pos : 0 < (c.region layout box).columns
  slices_pos : 0 < textureBoxDepthCount box
  columns_le : (c.region layout box).x + (c.region layout box).columns ≤ layout.exactColumnCount
  rows_le : (c.region layout box).y + (c.region layout box).rows ≤ layout.exactRowCount
  flat : c.desc.dimension ≠ .texture3D →
    layout.depth = 1 ∧ box.front.toNat = 0 ∧ textureBoxDepthCount box = 1

theorem ready {block : Nat} (h : LayoutFacts c.desc layout block) (hb : BoxAccepted layout box)
    (hfit : layout.exactRowPitch * layout.exactRowCount < 2 ^ 32) : c.Ready layout box := by
  have hexact := h.exact hfit
  obtain ⟨hcolumns, hrows, hslices, hright, hbottom, hback, hleft, htop⟩ := hb
  have hheight := hexact.height_lt
  have hlt := hexact.columns_lt
  have hwidth := hexact.width_le
  have hblock := h.block
  rw [h.blockWidth_eq] at hleft hwidth
  rw [h.blockHeight_eq] at htop
  have hwords := box.right.isLt
  have hsize : (c.region layout box).x + (c.region layout box).columns ≤
      layout.exactColumnCount := by
    unfold region TextureSubresourceLayout.exactColumnCount
    dsimp only
    rw [h.blockWidth_eq]
    rcases hblock with rfl | ⟨rfl, -⟩ <;> omega
  have hcount : (c.region layout box).y + (c.region layout box).rows ≤ layout.exactRowCount := by
    unfold region TextureSubresourceLayout.exactRowCount
    dsimp only
    rw [h.blockHeight_eq]
    rcases hblock with rfl | ⟨rfl, -⟩ <;> omega
  have hrows_pos : 0 < (c.region layout box).rows := by
    unfold region
    dsimp only
    rw [h.blockHeight_eq]
    rcases hblock with rfl | ⟨rfl, -⟩ <;> omega
  have hcolumns_pos : 0 < (c.region layout box).columns := by
    unfold region
    dsimp only
    rw [h.blockWidth_eq]
    rcases hblock with rfl | ⟨rfl, -⟩ <;> omega
  refine ⟨hexact, h.element_pos, ?_, ?_, hrows_pos, hcolumns_pos,
    by unfold textureBoxDepthCount; omega, hsize, hcount, fun hflat => ?_⟩
  · unfold textureBoxRowCount
    rw [u32_of_lt (by rw [h.blockHeight_eq]; rcases hblock with rfl | ⟨rfl, -⟩ <;> omega)]
    exact Nat.max_eq_right hrows_pos
  · unfold textureBoxRowSize
    have hdiff : box.right.toNat - box.left.toNat + layout.blockWidth - 1 < 2 ^ 32 := by
      rw [h.blockWidth_eq]
      rcases hblock with rfl | ⟨rfl, hbytes⟩
      · omega
      · -- a row of blocks of 8 bytes is wider than its texels
        have := Nat.mul_le_mul_left layout.exactColumnCount hbytes
        omega
    rw [u32_of_lt hdiff]
    refine u64_of_lt (Nat.lt_of_le_of_lt ?_ (Nat.lt_trans hlt (by decide)))
    exact Nat.mul_le_mul_right _ (Nat.le_trans (Nat.le_add_left _ _) hsize)
  · have := h.flat hflat
    unfold textureBoxDepthCount
    omega

/-! ## Offsets of rows -/

theorem mul_pred_lt {bound n m k : Nat} (h : (n - 1) * m < bound) (hk : k < n) : k * m < bound :=
  Nat.lt_of_le_of_lt (Nat.mul_le_mul_right m (Nat.le_sub_one_of_lt hk)) h

theorem rowOffset_eq {slicePitch rowPitch rowCount depth : Nat} {i : Nat × Nat}
    (hslices : (depth - 1) * slicePitch < 2 ^ 32) (hrows : (rowCount - 1) * rowPitch < 2 ^ 32)
    (hi : i ∈ grid depth rowCount) :
    rowOffset slicePitch rowPitch i = strided slicePitch rowPitch i := by
  obtain ⟨hz, hrow⟩ := mem_grid.mp hi
  unfold rowOffset strided
  rw [u32_of_lt (mul_pred_lt hslices hz), u32_of_lt (mul_pred_lt hrows hrow)]

/-- The rows of a grid at exact offsets are inside their slices, and apart. -/
theorem rowOffset_contract {slicePitch rowPitch rowCount depth n : Nat}
    (hslices : (depth - 1) * slicePitch < 2 ^ 32) (hrows : (rowCount - 1) * rowPitch < 2 ^ 32)
    (hn : n ≤ rowPitch) (hfit : (rowCount - 1) * rowPitch + n ≤ slicePitch) :
    (∀ i ∈ grid depth rowCount, rowOffset slicePitch rowPitch i + n ≤ depth * slicePitch) ∧
      Apart (rowOffset slicePitch rowPitch) n (grid depth rowCount) := by
  refine ⟨fun i hi => ?_, apart_grid fun i j hi hi' hj hj' hne => ?_⟩
  · rw [rowOffset_eq hslices hrows hi]
    exact strided_end_le hfit (mem_grid.mp hi).1 (mem_grid.mp hi).2
  · rw [rowOffset_eq hslices hrows (mem_grid.mpr ⟨hi, hi'⟩),
      rowOffset_eq hslices hrows (mem_grid.mpr ⟨hj, hj'⟩)]
    exact strided_apart_of_ne hn hfit hi' hj' hne

/-- Pitches that `ValidateTextureCopyPitches` accepts. -/
structure PitchesAccepted (rowSize rowCount : Nat) (pitches : Pitches) : Prop where
  row_le : rowSize ≤ pitches.row
  slice_le : pitches.slice ≠ 0 → 1 < rowCount → lastRowEnd rowSize rowCount pitches ≤ pitches.slice
  one_row : rowCount = 1 → pitches.slice ≠ 0 → rowSize ≤ pitches.slice

theorem validateTextureCopyPitches_spec {rowSize rowCount depthCount : Nat} {pitches : Pitches}
    (h : validateTextureCopyPitches rowSize rowCount depthCount pitches = true) :
    PitchesAccepted rowSize rowCount pitches := by
  unfold validateTextureCopyPitches at h
  simp only [Bool.and_eq_true, Bool.not_eq_true', Bool.and_eq_false_iff, decide_eq_false_iff_not,
    Nat.not_lt, Decidable.not_not] at h
  obtain ⟨⟨⟨hrow, hslice⟩, hone⟩, -⟩ := h
  refine ⟨hrow, fun h0 h1 => ?_, fun h1 h0 => ?_⟩
  · rcases hslice with (h | h) | h
    · exact absurd h h0
    · omega
    · exact h
  · rcases hone with (h | h) | h
    · exact absurd h1 h
    · exact absurd h h0
    · exact h

/-- The rows of a slice fit an accepted slice pitch. -/
theorem PitchesAccepted.fit {rowSize rowCount : Nat} {pitches : Pitches}
    (h : PitchesAccepted rowSize rowCount pitches) (hlt : pitches.InRange) (hcount : 0 < rowCount)
    (hrows : (rowCount - 1) * pitches.row < 2 ^ 32)
    (hslice : pitches.slice = 0 → pitches.row * rowCount < 2 ^ 32) :
    (rowCount - 1) * pitches.row + rowSize ≤ effectiveSlicePitch pitches rowCount := by
  have hrow := h.row_le
  unfold effectiveSlicePitch
  split
  case isTrue h0 =>
    by_cases h1 : rowCount = 1
    · have := h.one_row h1 h0
      rw [h1, Nat.sub_self, Nat.zero_mul]
      omega
    · have hend := h.slice_le h0 (by omega)
      unfold lastRowEnd at hend
      have hrange := hlt.1
      rwa [Nat.mul_comm, u32_of_lt hrows, u64_of_lt (by omega)] at hend
  case isFalse h0 =>
    rw [u32_of_lt (hslice (Decidable.not_not.mp h0)), Nat.sub_mul, Nat.one_mul,
      Nat.mul_comm rowCount]
    have := Nat.le_mul_of_pos_right pitches.row hcount
    omega

theorem effectiveSlicePitch_eq {pitches : Pitches} {rowCount : Nat}
    (h : pitches.slice = 0 → pitches.row * rowCount < 2 ^ 32) :
    effectiveSlicePitch pitches rowCount =
      if pitches.slice ≠ 0 then pitches.slice else pitches.row * rowCount := by
  unfold effectiveSlicePitch
  split
  case isTrue => rfl
  case isFalse h0 => exact u32_of_lt (h (Decidable.not_not.mp h0))

/-- **The memory of the application**: the contract is met when its sizes fit. -/
theorem memoryContract_iff {pitches : Pitches} (hr : c.Ready layout box) (hlt : pitches.InRange)
    (ha : PitchesAccepted (textureBoxRowSize box layout) (textureBoxRowCount box layout) pitches) :
    MemoryContract layout box pitches ↔
      PitchesFit (c.region layout box).rows (c.region layout box).slices pitches := by
  have hslices : (c.region layout box).slices = textureBoxDepthCount box := rfl
  have hpos : 0 < textureBoxRowCount box layout := hr.rowCount ▸ hr.rows_pos
  rw [← hr.rowCount, hslices]
  constructor
  · intro h
    have hslice (h0 : pitches.slice = 0) : pitches.row * textureBoxRowCount box
        layout < 2 ^ 32 := by
      have := h.exactSlice h0
      unfold effectiveSlicePitch at this
      rw [if_neg (not_not.mpr h0)] at this
      exact this ▸ u32_lt _
    refine ⟨?_, hslice, ?_⟩
    · exact h.exactRows _ (Nat.sub_one_lt_of_lt hpos) ▸ u32_lt _
    · rw [← effectiveSlicePitch_eq hslice]
      exact h.exactSlices _ (Nat.sub_one_lt_of_lt hr.slices_pos) ▸ u32_lt _
  · intro h
    have heff := effectiveSlicePitch_eq h.slice
    have hfit := ha.fit hlt hpos h.rows h.slice
    have hbound := h.slices
    rw [← heff] at hbound
    obtain ⟨hinside, hapart⟩ := rowOffset_contract hbound h.rows ha.row_le hfit
    refine ⟨fun h0 => ?_, fun z hz => u32_of_lt (mul_pred_lt hbound hz),
      fun row hrow => u32_of_lt (mul_pred_lt h.rows hrow), hinside, hapart⟩
    rw [heff, if_neg (not_not.mpr h0)]

/-! ## Offsets in the mapped memory and in the staging buffer -/

theorem mapped_flat (h : c.mapped = true) : c.desc.dimension ≠ .texture3D := by
  unfold mapped isCpuLinearTextureSubresource at h
  simp only [Bool.and_eq_true, decide_eq_true_eq] at h
  rw [h.1.2.1.1.1.1]
  decide

/-- A row of a box is not wider than the row pitch. -/
theorem Ready.rowSize_le (hr : c.Ready layout box) :
    textureBoxRowSize box layout ≤ layout.exactRowPitch := by
  rw [hr.rowSize]
  refine Nat.le_trans (Nat.mul_le_mul_right _ ?_) hr.exact.row_le
  exact Nat.le_trans (Nat.le_add_left _ _) hr.columns_le

/-- The end of the columns of the box in a row of the subresource. -/
theorem Ready.columns_end_le (hr : c.Ready layout box) :
    (c.region layout box).x * layout.elementSize +
    (c.region layout box).columns * layout.elementSize ≤
      layout.exactRowPitch := by
  rw [← Nat.add_mul]
  exact Nat.le_trans (Nat.mul_le_mul_right _ hr.columns_le) hr.exact.row_le

theorem Ready.textureRowOffset_eq (hr : c.Ready layout box) (hmapped : c.mapped = true)
    {i : Nat × Nat} (hi : i ∈ rowsOf layout box) :
    textureRowOffset box layout i = ((c.region layout box).y + i.2) * layout.exactRowPitch +
      (c.region layout box).x * layout.elementSize := by
  obtain ⟨-, hfront, hdepth⟩ := hr.flat (mapped_flat hmapped)
  obtain ⟨hz, hrow⟩ := mem_grid.mp hi
  have hzero : i.1 = 0 := by omega
  have hle := hr.rows_le
  have hend := hr.columns_end_le
  rw [hr.rowCount] at hrow
  have hcount : layout.exactRowCount < 2 ^ 32 :=
    Nat.lt_of_le_of_lt (Nat.le_mul_of_pos_left _ hr.exact.pitch_pos) hr.exact.slice_lt
  have hblockY : u32 (box.top.toNat / layout.blockHeight + i.2) = (c.region layout box).y + i.2 :=
    u32_of_lt (show (c.region layout box).y + i.2 < 2 ^ 32 by omega)
  have hrows : ((c.region layout box).y + i.2) * layout.exactRowPitch < 2 ^ 32 := by
    refine Nat.lt_of_le_of_lt (Nat.mul_le_mul_right _ ?_) (Nat.mul_comm _ _ ▸ hr.exact.slice_lt)
    omega
  have hpitch := hr.exact.pitch_lt
  unfold textureRowOffset
  dsimp only
  rw [hfront, hzero, hblockY, hr.exact.rowPitch, Nat.add_zero, u32_of_lt (by decide), Nat.zero_mul,
    Nat.zero_add]
  exact u64_of_lt (show _ + (c.region layout box).x * layout.elementSize < 2 ^ 64 by omega)

/-- The rows in the mapped memory are inside it, and apart. -/
theorem Ready.mapped_contract (hr : c.Ready layout box) (hmapped : c.mapped = true) :
    (∀ i ∈ rowsOf layout box,
      textureRowOffset box layout i + textureBoxRowSize box layout ≤ layout.slicePitch) ∧
      Apart (textureRowOffset box layout) (textureBoxRowSize box layout) (rowsOf layout box) := by
  have hend := hr.columns_end_le
  have hle := hr.rows_le
  have hdepth := (hr.flat (mapped_flat hmapped)).2.2
  refine ⟨fun i hi => ?_, apart_grid fun i j hi hi' hj hj' hne => ?_⟩
  · have hrow := (mem_grid.mp hi).2
    rw [hr.rowCount] at hrow
    have hmul := Nat.mul_le_mul_right layout.exactRowPitch
      (show (c.region layout box).y + i.2 + 1 ≤ layout.exactRowCount by omega)
    rw [hr.textureRowOffset_eq hmapped hi, hr.rowSize, hr.exact.slicePitch,
      Nat.mul_comm _ layout.exactRowCount]
    rw [Nat.succ_mul] at hmul
    omega
  · have hrow : i.2 ≠ j.2 := fun he => hne (Prod.ext (by omega) he)
    rw [hr.textureRowOffset_eq hmapped (mem_grid.mpr ⟨hi, hi'⟩),
      hr.textureRowOffset_eq hmapped (mem_grid.mpr ⟨hj, hj'⟩), hr.rowSize]
    rcases Nat.lt_or_gt_of_ne hrow with hlt | hlt
    · have := Nat.mul_le_mul_right layout.exactRowPitch
        (show (c.region layout box).y + i.2 + 1 ≤ (c.region layout box).y + j.2 by omega)
      rw [Nat.succ_mul] at this
      omega
    · have := Nat.mul_le_mul_right layout.exactRowPitch
        (show (c.region layout box).y + j.2 + 1 ≤ (c.region layout box).y + i.2 by omega)
      rw [Nat.succ_mul] at this
      omega

/-- The slice pitch of a staging buffer that fits. -/
theorem Ready.stagingSlicePitch_eq (hr : c.Ready layout box)
    (hfit : layout.exactRowPitch * (c.region layout box).rows * (c.region layout box).slices <
      2 ^ 32) :
    stagingSlicePitch layout box = layout.exactRowPitch * (c.region layout box).rows := by
  unfold stagingSlicePitch
  rw [hr.exact.rowPitch, hr.rowCount]
  exact u32_of_lt (Nat.lt_of_le_of_lt (Nat.le_mul_of_pos_right _ hr.slices_pos) hfit)

/-- The last row of a slice of the staging buffer. -/
theorem Ready.staging_fit (hr : c.Ready layout box)
    (hfit : layout.exactRowPitch * (c.region layout box).rows * (c.region layout box).slices <
      2 ^ 32) :
    (textureBoxRowCount box layout - 1) * layout.rowPitch + textureBoxRowSize box layout ≤
      stagingSlicePitch layout box := by
  have hle := hr.rowSize_le
  have hpos := hr.rows_pos
  have hmul := Nat.le_mul_of_pos_left layout.exactRowPitch hpos
  rw [hr.stagingSlicePitch_eq hfit, hr.exact.rowPitch, hr.rowCount, Nat.sub_mul, Nat.one_mul,
    Nat.mul_comm layout.exactRowPitch]
  omega

theorem Ready.staging_bounds (hr : c.Ready layout box)
    (hfit : layout.exactRowPitch * (c.region layout box).rows * (c.region layout box).slices <
      2 ^ 32) :
    (textureBoxDepthCount box - 1) * stagingSlicePitch layout box < 2 ^ 32 ∧
      (textureBoxRowCount box layout - 1) * layout.rowPitch < 2 ^ 32 := by
  have hlt := hr.staging_fit hfit
  have hslice := u32_lt (layout.rowPitch * textureBoxRowCount box layout)
  refine ⟨?_, Nat.lt_of_le_of_lt (Nat.le_trans (Nat.le_add_right _ _) hlt) hslice⟩
  rw [hr.stagingSlicePitch_eq hfit]
  rw [Nat.mul_comm _ (c.region layout box).slices] at hfit
  exact Nat.lt_of_le_of_lt (Nat.mul_le_mul_right _ (Nat.sub_le _ _)) hfit

/-- The length of a staging buffer that fits. A plane has one slice. -/
theorem Ready.stagingLength_eq (hr : c.Ready layout box)
    (hplanar : c.planar = true → textureBoxDepthCount box = 1)
    (hfit : layout.exactRowPitch * (c.region layout box).rows * (c.region layout box).slices <
    2 ^ 32) :
    c.stagingLength layout box = textureBoxDepthCount box * stagingSlicePitch layout box := by
  unfold stagingLength
  split
  case isTrue h => rw [hplanar h, Nat.one_mul]
  case isFalse =>
    rw [hr.stagingSlicePitch_eq hfit, Nat.mul_comm (textureBoxDepthCount box)]
    exact u32_of_lt hfit

/-- A length that wraps around ends in front of the last slice. -/
theorem Ready.staging_lt (hr : c.Ready layout box) (h : c.BufferContract layout box)
    (hmapped : c.mapped = false) (hplanar : c.planar = true → textureBoxDepthCount box = 1) :
    layout.exactRowPitch * (c.region layout box).rows * (c.region layout box).slices < 2 ^ 32 := by
  have hslice := u32_lt (layout.rowPitch * textureBoxRowCount box layout)
  have hexact := h.exactStaging hmapped
  have hdepth := hr.slices_pos
  have hrows : 0 < textureBoxRowCount box layout := hr.rowCount ▸ hr.rows_pos
  have hlast : (textureBoxDepthCount box - 1,
      textureBoxRowCount box layout - 1) ∈ rowsOf layout box :=
    mem_grid.mpr ⟨Nat.sub_one_lt_of_lt hdepth, Nat.sub_one_lt_of_lt hrows⟩
  have hinside := h.inside _ hlast
  unfold bufferOffset bufferLength at hinside
  rw [hmapped, if_neg Bool.false_ne_true, if_neg Bool.false_ne_true] at hinside
  unfold stagingOffset rowOffset at hinside
  rw [h.exactSlices hmapped _ (Nat.sub_one_lt_of_lt hdepth), Nat.sub_mul, Nat.one_mul] at hinside
  show layout.exactRowPitch * (c.region layout box).rows * textureBoxDepthCount box < 2 ^ 32
  rw [← hr.exact.rowPitch, ← hr.rowCount, ← hexact, Nat.mul_comm]
  have hlt : stagingSlicePitch layout box < 2 ^ 32 := hslice
  have hmul := Nat.le_mul_of_pos_left (stagingSlicePitch layout box) hdepth
  have hpos : 0 < textureBoxRowSize box layout :=
    hr.rowSize ▸ Nat.mul_pos hr.columns_pos hr.element_pos
  unfold stagingLength at hinside
  split at hinside
  case isTrue hp => rw [hplanar hp, Nat.one_mul]; exact hlt
  case isFalse =>
    by_contra hge
    have hmod := Nat.div_add_mod (stagingSlicePitch layout box * textureBoxDepthCount box) (2 ^ 32)
    have hdiv := Nat.div_pos (Nat.mul_comm (textureBoxDepthCount box) _ ▸ Nat.le_of_not_lt hge)
      (by decide : 0 < 2 ^ 32)
    unfold u32 at hinside
    rw [Nat.mul_comm (textureBoxDepthCount box)] at hinside hge hmul
    omega

theorem Ready.bufferContract_iff (hr : c.Ready layout box)
    (hplanar : c.mapped = false → c.planar = true → textureBoxDepthCount box = 1) :
    c.BufferContract layout box ↔ (c.mapped = false →
      layout.exactRowPitch * (c.region layout box).rows *
        (c.region layout box).slices < 2 ^ 32) := by
  constructor
  · exact fun h hmapped => hr.staging_lt h hmapped (hplanar hmapped)
  · intro hfit
    cases hmapped : c.mapped with
    | true =>
      obtain ⟨hinside, hapart⟩ := hr.mapped_contract hmapped
      have hoffset : c.bufferOffset layout box = textureRowOffset box layout := if_pos hmapped
      have hlength : c.bufferLength layout box = layout.slicePitch := if_pos hmapped
      refine ⟨hr.exact.slicePitch, fun h => ?_, fun h => ?_, fun h => ?_, ?_, ?_⟩
      · exact absurd (h.symm.trans hmapped) Bool.false_ne_true
      · exact absurd (h.symm.trans hmapped) Bool.false_ne_true
      · exact absurd (h.symm.trans hmapped) Bool.false_ne_true
      · rw [hoffset, hlength]
        exact hinside
      · rw [hoffset]
        exact hapart
    | false =>
      have hlt := hfit hmapped
      obtain ⟨hslices, hrows⟩ := hr.staging_bounds hlt
      have hle : textureBoxRowSize box layout ≤ layout.rowPitch := hr.exact.rowPitch ▸ hr.rowSize_le
      obtain ⟨hinside, hapart⟩ := rowOffset_contract hslices hrows hle (hr.staging_fit hlt)
      have hoffset : c.bufferOffset layout box = stagingOffset layout box :=
        if_neg (hmapped ▸ Bool.false_ne_true)
      have hlength : c.bufferLength layout box =
          textureBoxDepthCount box * stagingSlicePitch layout box :=
        (if_neg (hmapped ▸ Bool.false_ne_true)).trans (hr.stagingLength_eq (hplanar hmapped) hlt)
      refine ⟨hr.exact.slicePitch, fun _ => ?_, fun _ z hz => u32_of_lt (mul_pred_lt hslices hz),
        fun _ row hrow => u32_of_lt (mul_pred_lt hrows hrow), ?_, ?_⟩
      · rw [hr.stagingSlicePitch_eq hlt, hr.exact.rowPitch, hr.rowCount]
      · rw [hoffset, hlength]
        exact hinside
      · rw [hoffset]
        exact hapart

/-! ## Round trips -/

/-- A byte of a block outside the box is in no row of the box. -/
theorem Ready.not_in_row (hr : c.Ready layout box) (hmapped : c.mapped = true) {x y z k : Nat}
    (hx : x < layout.exactColumnCount) (hk : k < layout.elementSize) (hz : z < layout.depth)
    (hout : ¬ (c.region layout box).Contains x y z) {i : Nat × Nat} (hi : i ∈ rowsOf layout box) :
    ¬ (textureRowOffset box layout i ≤ y * layout.rowPitch + x * layout.elementSize + k ∧
      y * layout.rowPitch + x * layout.elementSize + k <
        textureRowOffset box layout i + textureBoxRowSize box layout) := by
  have hflat := mapped_flat hmapped
  obtain ⟨hdepth, -, hslices⟩ := hr.flat hflat
  have hend := hr.columns_end_le
  have hrow := (mem_grid.mp hi).2
  rw [hr.rowCount] at hrow
  rw [hr.textureRowOffset_eq hmapped hi, hr.rowSize, hr.exact.rowPitch]
  rintro ⟨hle, hlt⟩
  have hcolumn : x * layout.elementSize + k < layout.exactRowPitch := by
    have := Nat.mul_le_mul_right layout.elementSize (Nat.succ_le_of_lt hx)
    have := hr.exact.row_le
    rw [Nat.succ_mul] at *
    omega
  have hy : y = (c.region layout box).y + i.2 := by
    rcases Nat.lt_trichotomy y ((c.region layout box).y + i.2) with h | h | h
    · have := Nat.mul_le_mul_right layout.exactRowPitch (Nat.succ_le_of_lt h)
      rw [Nat.succ_mul] at this
      omega
    · exact h
    · have := Nat.mul_le_mul_right layout.exactRowPitch (Nat.succ_le_of_lt h)
      rw [Nat.succ_mul] at this
      omega
  rw [hy] at hle hlt
  have hleft : (c.region layout box).x ≤ x := by
    by_contra h
    have := Nat.mul_le_mul_right layout.elementSize (Nat.succ_le_of_lt (Nat.lt_of_not_le h))
    rw [Nat.succ_mul] at this
    omega
  have hright : x < (c.region layout box).x + (c.region layout box).columns := by
    by_contra h
    have := Nat.mul_le_mul_right layout.elementSize (Nat.le_of_not_lt h)
    rw [Nat.add_mul] at this
    omega
  have hslice : (c.region layout box).z = 0 := if_neg hflat
  have hcount : (c.region layout box).slices = 1 := hslices
  exact hout ⟨⟨hleft, hright⟩, ⟨by omega, by omega⟩, by omega, by omega⟩

/-- **In the mapped memory** the rows are copied in place. -/
theorem Ready.roundTrip_mapped (hr : c.Ready layout box) (hmapped : c.mapped = true)
    (hread : MemoryContract layout box c.read) : c.RoundTrip layout box := by
  intro store hstore src dst buffer
  cases store with
  | device texels => exact absurd (hstore.trans hmapped) Bool.false_ne_true
  | mapped memory =>
    refine ⟨_, _, rfl, rfl, fun i hi j hj => ?_, fun a ha => copyRows_frame ha, ?_⟩
    · exact (copyRows_apply hread.apart hi hj).trans
        (copyRows_apply (hr.mapped_contract hmapped).2 hi hj)
    · intro x y z k hx hk hz hout
      exact copyRows_frame fun i hi => hr.not_in_row hmapped hx hk hz hout hi

/-- The images of a staging buffer are at the slice pitch: a box that is not in a 3D texture has
one. -/
theorem Ready.strided_eq (hr : c.Ready layout box) {i : Nat × Nat} (hi : i ∈ rowsOf layout box) :
    strided (c.bufferRows layout box).bytesPerImage (c.bufferRows layout box).bytesPerRow i =
      strided (stagingSlicePitch layout box) layout.rowPitch i := by
  unfold bufferRows
  dsimp only
  split
  case isTrue => rfl
  case isFalse hflat =>
    have hz := (mem_grid.mp hi).1
    have hzero : i.1 = 0 := by
      have := (hr.flat hflat).2.2
      omega
    unfold strided
    rw [hzero, Nat.zero_mul, Nat.zero_mul]

/-- The offset in the buffer of the block that a byte of a row belongs to. -/
theorem offset_add_mod (rows : BufferRows) (region : BlitRegion) (i : Nat × Nat) (j : Nat) :
    rows.offset region (region.x + j / rows.elementSize) (region.y + i.2) (region.z + i.1) +
        j % rows.elementSize = strided rows.bytesPerImage rows.bytesPerRow i + j := by
  have hdiv := Nat.div_add_mod j rows.elementSize
  unfold BufferRows.offset strided
  rw [Nat.add_sub_cancel_left, Nat.add_sub_cancel_left, Nat.add_sub_cancel_left,
    Nat.mul_comm (j / rows.elementSize)]
  omega

/-- The validation accepts pitches that the rows of a slice fit. -/
theorem validateTextureCopyPitches_of_fit {rowSize rowCount depthCount : Nat} {pitches : Pitches}
    (hrow : rowSize ≤ pitches.row) (hfit : (rowCount - 1) * pitches.row + rowSize ≤ pitches.slice)
    (hlt : pitches.slice < 2 ^ 32) :
    validateTextureCopyPitches rowSize rowCount depthCount pitches = true := by
  have hend : lastRowEnd rowSize rowCount pitches = (rowCount - 1) * pitches.row + rowSize := by
    unfold lastRowEnd
    rw [Nat.mul_comm pitches.row, u32_of_lt (by omega), u64_of_lt (by omega)]
  unfold validateTextureCopyPitches
  rw [hend]
  simp only [Bool.and_eq_true, Bool.not_eq_true', Bool.and_eq_false_iff, decide_eq_false_iff_not,
    Nat.not_lt]
  exact ⟨⟨⟨hrow, Or.inr hfit⟩, Or.inr (by omega)⟩, Or.inr hfit⟩

/-- What a read of the box brings into the buffer. -/
theorem Ready.copyFromTextureToBuffer_apply (hr : c.Ready layout box)
    (hfit : layout.exactRowPitch * (c.region layout box).rows * (c.region layout box).slices <
      2 ^ 32)
    (texels : Texels) (buffer : Nat → Byte) {i : Nat × Nat} (hi : i ∈ rowsOf layout box) {j : Nat}
    (hj : j < textureBoxRowSize box layout) :
    copyFromTextureToBuffer (c.bufferRows layout box) (c.region layout box) texels buffer
        (stagingOffset layout box i + j) =
      texels ((c.region layout box).x + j / layout.elementSize) ((c.region layout box).y + i.2)
        ((c.region layout box).z + i.1) (j % layout.elementSize) := by
  have hgrid : grid (c.region layout box).slices (c.region layout box).rows =
      rowsOf layout box := by
    unfold rowsOf
    rw [hr.rowCount]
    rfl
  have hsize : (c.region layout box).columns * (c.bufferRows layout box).elementSize =
      textureBoxRowSize box layout := hr.rowSize.symm
  obtain ⟨hslices, hrows⟩ := hr.staging_bounds hfit
  have hle : textureBoxRowSize box layout ≤ layout.rowPitch := hr.exact.rowPitch ▸ hr.rowSize_le
  have happly := rowOffset_eq hslices hrows hi
  unfold stagingOffset
  rw [happly, ← hr.strided_eq hi]
  unfold copyFromTextureToBuffer
  rw [hgrid, hsize]
  refine storeRows_apply (apart_grid fun i j hi hi' hj hj' hne => ?_) hi hj
  rw [hr.strided_eq (mem_grid.mpr ⟨hi, hi'⟩), hr.strided_eq (mem_grid.mpr ⟨hj, hj'⟩)]
  exact strided_apart_of_ne hle (hr.staging_fit hfit) hi' hj' hne

/-- What a write of the buffer brings into the box. -/
theorem Ready.copyFromBufferToTexture_apply (hr : c.Ready layout box)
    (hfit : layout.exactRowPitch * (c.region layout box).rows * (c.region layout box).slices <
      2 ^ 32)
    (texels : Texels) (buffer : Nat → Byte) {i : Nat × Nat} (hi : i ∈ rowsOf layout box) {j : Nat}
    (hj : j < textureBoxRowSize box layout) :
    copyFromBufferToTexture (c.bufferRows layout box) (c.region layout box) buffer texels
        ((c.region layout box).x + j / layout.elementSize) ((c.region layout box).y + i.2)
        ((c.region layout box).z + i.1) (j % layout.elementSize) =
      buffer (stagingOffset layout box i + j) := by
  obtain ⟨hslices, hrows⟩ := hr.staging_bounds hfit
  obtain ⟨hz, hrow⟩ := mem_grid.mp hi
  rw [hr.rowCount] at hrow
  have hz' : i.1 < (c.region layout box).slices := hz
  have hcolumn : j / layout.elementSize < (c.region layout box).columns := by
    rw [Nat.div_lt_iff_lt_mul hr.element_pos, ← hr.rowSize]
    exact hj
  unfold copyFromBufferToTexture
  rw [if_pos ⟨⟨⟨Nat.le_add_right _ _, Nat.add_lt_add_left hcolumn _⟩, ⟨by omega, by omega⟩,
    by omega, by omega⟩, Nat.mod_lt _ hr.element_pos⟩]
  unfold stagingOffset
  rw [rowOffset_eq hslices hrows hi, ← hr.strided_eq hi]
  exact congrArg buffer (offset_add_mod (c.bufferRows layout box) (c.region layout box) i j)

/-- **Through a staging buffer** the rows are copied into and out of the blocks of the box. -/
theorem Ready.roundTrip_device (hr : c.Ready layout box) (hmapped : c.mapped = false)
    (htarget : c.targetExists = true) (hplane : c.planar = true → c.hasPlaneView = true)
    (hfit : layout.exactRowPitch * (c.region layout box).rows * (c.region layout box).slices <
    2 ^ 32)
    (haccepts : validateTextureCopyPitches (textureBoxRowSize box layout)
      (textureBoxRowCount box layout)
      (textureBoxDepthCount box) c.read = true)
    (hread : MemoryContract layout box c.read) : c.RoundTrip layout box := by
  intro store hstore src dst buffer
  cases store with
  | mapped memory => exact absurd (hmapped.symm.trans hstore.symm) Bool.false_ne_true
  | device texels =>
    obtain ⟨hslices, hrows⟩ := hr.staging_bounds hfit
    have hle : textureBoxRowSize box layout ≤ layout.rowPitch := hr.exact.rowPitch ▸ hr.rowSize_le
    have hstaging := hr.staging_fit hfit
    have hslice : stagingSlicePitch layout box < 2 ^ 32 := u32_lt _
    have hne : stagingSlicePitch layout box ≠ 0 := by
      have : 0 < textureBoxRowSize box layout :=
        hr.rowSize ▸ Nat.mul_pos hr.columns_pos hr.element_pos
      omega
    have hvalid := @validateTextureCopyPitches_of_fit _ _ (textureBoxDepthCount box)
      ⟨layout.rowPitch, stagingSlicePitch layout box⟩ hle hstaging hslice
    have hsource : effectiveSlicePitch ⟨layout.rowPitch, stagingSlicePitch layout box⟩
        (textureBoxRowCount box layout) = stagingSlicePitch layout box := if_pos hne
    obtain ⟨-, hapart⟩ := rowOffset_contract hslices hrows hle hstaging
    have hview : (c.planar && !c.hasPlaneView) = false := by
      cases hplanar : c.planar with
      | false => rfl
      | true => rw [hplane hplanar]; rfl
    unfold writeTextureRows readTextureRows copyTextureRowsToMemory
    dsimp only
    rw [hview, if_neg Bool.false_ne_true, htarget, Bool.not_true, if_neg Bool.false_ne_true, hvalid,
      haccepts, hsource]
    refine ⟨_, _, rfl, rfl, fun i hi j hj => ?_, fun a ha => copyRows_frame ha, ?_⟩
    · refine (copyRows_apply hread.apart hi hj).trans ?_
      refine (hr.copyFromTextureToBuffer_apply hfit _ buffer hi hj).trans ?_
      refine (hr.copyFromBufferToTexture_apply hfit texels _ hi hj).trans ?_
      exact copyRows_apply hapart hi hj
    · intro x y z k hx hk hz hout
      exact if_neg fun h => hout h.1

theorem prepare_spec {layout : TextureSubresourceLayout} {box : Box}
    (h : c.prepare = .ok (layout, box)) :
    (∃ block, LayoutFacts c.desc layout block) ∧ BoxAccepted layout box := by
  unfold prepare at h
  split at h
  · cases h
  · cases h
  case h_3 l hlayout =>
    split at h
    · cases h
    case h_2 b hbox =>
      cases h
      exact ⟨getTextureSubresourceLayout_spec hlayout, normalizeTextureBox_spec hbox⟩

theorem accepts_spec {pitches : Pitches} (h : c.accepts layout box pitches = true) :
    validateTextureCopyPitches (textureBoxRowSize box layout) (textureBoxRowCount box layout)
        (textureBoxDepthCount box) pitches = true ∧
      (c.mapped = false → c.planar = true → textureBoxDepthCount box = 1) := by
  unfold accepts at h
  rw [Bool.and_eq_true] at h
  refine ⟨h.1, fun hmapped hplanar => ?_⟩
  by_contra hne
  have := h.2
  rw [hmapped, hplanar, decide_eq_true hne] at this
  cases this

theorem isMapped_writeTextureRows {src : Nat → Byte} {store store' : Store}
    (h : c.writeTextureRows layout box src store = .ok store') :
    isMapped store' = isMapped store := by
  unfold writeTextureRows at h
  cases store with
  | mapped memory =>
    cases h
    rfl
  | device texels =>
    dsimp only at h
    split at h
    · cases h
      rfl
    · split at h
      · cases h
      · cases h
        rfl

/-- A blit reads from a level that exists and, for a plane, through a view. -/
theorem readTextureRows_ok {dst buffer dst' : Nat → Byte} {store : Store}
    (h : c.readTextureRows layout box dst buffer store = .ok dst')
    (hstore : isMapped store = false) :
    c.targetExists = true ∧ (c.planar = true → c.hasPlaneView = true) := by
  unfold readTextureRows at h
  cases store with
  | mapped memory => cases hstore
  | device texels =>
    dsimp only at h
    split at h
    · cases h
    next hplane =>
      split at h
      · cases h
      next htarget =>
        refine ⟨by simpa using htarget, fun hplanar => ?_⟩
        simpa [hplanar] using hplane

/-- `R32G32B32A32_FLOAT`. -/
def rgba32Float : FormatTraits where
  unknown := false
  mask := false
  video := false
  depthStencil := false
  planar := false
  format := some ⟨false, 16, fun h => absurd h Bool.false_ne_true⟩
  planeCount := 1
  planes _ := ⟨none, 0, 0, 0⟩
  plain _ _ _ _ := rfl

/-- A square 2D texture with one level. -/
def squareTexture (size : Nat) : ResourceDesc where
  dimension := .texture2D
  width := BitVec.ofNat 64 size
  height := BitVec.ofNat 32 size
  depthOrArraySize := 1
  mipLevels := 1
  sampleCount := 1
  sampleQuality := 0
  layout := .unknown

/-- The whole of a square texture in a default heap, with rows of 256 KiB in the memory of the
application. -/
def wholeSquare (size : Nat) : Transfer where
  desc := squareTexture size
  traits := rgba32Float
  defaultHeap := true
  subResource := 0
  box := none
  write := ⟨0x40000, 0⟩
  read := ⟨0x40000, 0⟩
  write_lt := ⟨by decide, by decide⟩
  read_lt := ⟨by decide, by decide⟩

end Transfer

end TextureCopy

end Dxmt
