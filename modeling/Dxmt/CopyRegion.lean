import Dxmt.GridCopy
import Dxmt.Subresources

/-!
# Texture copies of the command queue: `ReplayCopyTextureRegion`

`ReplayCopyTextureRegion` turns a record into one Metal command, `ReplayCopyResource` a record into
one for each subresource. A cell is a block of a plane of a texture, or the place of one in a
buffer. What a command does is the set of pairs of a cell it writes and the cell it takes its value
from.

`MTLQueryDXGIFormat` is a parameter. Diagnostics are left out.

* `Copy.exact_iff_meets`: a record is carried out as it says, and nothing else is written, exactly
  where it `Meets` what the queue does: a box that starts at the origin, a footprint of the extent
  of its subresource, one plane.

Source: `d3d12_command_queue.cpp:581-695, 2621-2648, 5843-5883, 6052-6400`,
`d3d12_resource.cpp:66-178, 697-704`, `dxmt_format.cpp:14-218, 621-637`, `dxmt_command.cpp:600-743`,
`dxmt_command.metal:537-558, 620-647`.
-/

namespace Dxmt

namespace CopyRegion

open TextureCopy Subresources GridCopy

/-! ## Formats -/

/-- `WMTPixelFormat`, as far as `DepthStencilPlanarFlags` tells formats apart. -/
inductive PixelFormat
  | depth32FloatStencil8
  | depth32Float
  | depth16Unorm
  | r32X8X32
  | stencil8
  | x32Stencil8
  | x32G8X32
  | other (code : Nat)
  deriving DecidableEq

/-- `DepthStencilPlanarFlags`: bit 0 for depth, bit 1 for stencil. -/
def depthStencilPlanarFlags : PixelFormat → Nat
  | .depth32FloatStencil8 => 3
  | .depth32Float | .depth16Unorm | .r32X8X32 => 1
  | .stencil8 | .x32Stencil8 | .x32G8X32 => 2
  | .other _ => 0

/-- `DXGI_FORMAT`, as far as the traits and the compatibility of planes tell formats apart. -/
inductive DXGIFormat
  | unknown
  | forceUint
  | r32G8X24Typeless
  | d32FloatS8X24Uint
  | r32FloatX8X24Typeless
  | x32TypelessG8X24Uint
  | d24UnormS8Uint
  | r24G8Typeless
  | r24UnormX8Typeless
  | x24TypelessG8Uint
  | d32Float
  | d16Unorm
  | nv12
  | p010
  | p016
  | r1Unorm
  | r8Typeless
  | r8Unorm
  | r8G8Typeless
  | r8G8Unorm
  | r16Typeless
  | r16Unorm
  | r16G16Typeless
  | r16G16Unorm
  | r32Typeless
  | r32Float
  | other (code : Nat)
  deriving DecidableEq

/-- The formats and the element size of one plane. -/
structure DXGIFormatPlaneTraits where
  backingFormat : DXGIFormat
  viewFormat : DXGIFormat
  footprintFormat : DXGIFormat
  elementSize : Nat
  subsampleXLog2 : Nat
  subsampleYLog2 : Nat

/-- `DXGIFormatTraits`; the two flags are those that are asked for. -/
structure DXGIFormatTraits where
  planeCount : Nat
  video : Bool
  depthStencil : Bool
  planes : Nat → DXGIFormatPlaneTraits

/-- A plane of one format. -/
def planeOf (format : DXGIFormat) (elementSize subsampleLog2 : Nat) : DXGIFormatPlaneTraits where
  backingFormat := format
  viewFormat := format
  footprintFormat := format
  elementSize := elementSize
  subsampleXLog2 := subsampleLog2
  subsampleYLog2 := subsampleLog2

/-- `SinglePlaneNative`, and `MaskFormatTraits`. -/
def singlePlaneNative (format : DXGIFormat) : DXGIFormatTraits where
  planeCount := 1
  video := false
  depthStencil := false
  planes
    | 0 => planeOf format 0 0
    | _ => planeOf .unknown 0 0

/-- The traits of a depth-stencil format; without a stencil format it has one plane. -/
def depthStencilTraits (depthFormat stencilFormat : DXGIFormat) (depthElementSize : Nat) :
    DXGIFormatTraits where
  planeCount := if stencilFormat ≠ .unknown then 2 else 1
  video := false
  depthStencil := true
  planes
    | 0 => planeOf depthFormat depthElementSize 0
    | 1 => planeOf stencilFormat 1 0
    | _ => planeOf .unknown 0 0

/-- The traits of a 4:2:0 video format, whose second plane is halved. -/
def video420Traits (yFormat uvFormat : DXGIFormat) (yElementSize uvElementSize : Nat) :
    DXGIFormatTraits where
  planeCount := 2
  video := true
  depthStencil := false
  planes
    | 0 => planeOf yFormat yElementSize 0
    | 1 => planeOf uvFormat uvElementSize 1
    | _ => planeOf .unknown 0 0

/-- `kUnsupportedFormatTraits`. -/
def unsupportedFormatTraits : DXGIFormatTraits where
  planeCount := 0
  video := false
  depthStencil := false
  planes := fun _ => planeOf .unknown 0 0

/-- `GetDXGIFormatTraits`. -/
def getDXGIFormatTraits : DXGIFormat → DXGIFormatTraits
  | .r32G8X24Typeless | .d32FloatS8X24Uint | .r32FloatX8X24Typeless | .x32TypelessG8X24Uint =>
    depthStencilTraits .r32Typeless .r8Typeless 4
  | .d24UnormS8Uint | .r24G8Typeless | .r24UnormX8Typeless | .x24TypelessG8Uint =>
    depthStencilTraits .r32Typeless .r8Typeless 4
  | .d32Float => depthStencilTraits .r32Float .unknown 4
  | .d16Unorm => depthStencilTraits .r16Unorm .unknown 2
  | .nv12 => video420Traits .r8Typeless .r8G8Typeless 1 2
  | .p010 | .p016 => video420Traits .r16Typeless .r16G16Typeless 2 4
  | .unknown | .forceUint => unsupportedFormatTraits
  | format => singlePlaneNative format

/-- `IsDepthStencilDXGIFormat`. -/
def isDepthStencilDXGIFormat : DXGIFormat → Bool
  | .r32G8X24Typeless | .d32FloatS8X24Uint | .r32FloatX8X24Typeless | .x32TypelessG8X24Uint
  | .d24UnormS8Uint | .r24G8Typeless | .r24UnormX8Typeless | .x24TypelessG8Uint
  | .d32Float | .d16Unorm => true
  | _ => false

/-- `IsDXGIFormatPlaneCompatible`: the formats under which a plane may be copied. -/
def isDXGIFormatPlaneCompatible (allocationFormat viewOrCopyFormat : DXGIFormat) (plane : Nat) :
    Bool :=
  let traits := getDXGIFormatTraits allocationFormat
  if traits.planeCount = 0 || traits.planeCount ≤ plane then false
  else if viewOrCopyFormat = allocationFormat || viewOrCopyFormat =
      (traits.planes plane).viewFormat ||
      viewOrCopyFormat = (traits.planes plane).footprintFormat ||
      viewOrCopyFormat = (traits.planes plane).backingFormat then true
  else
    match allocationFormat with
    | .nv12 =>
      if plane = 0 then viewOrCopyFormat = .r8Unorm || viewOrCopyFormat = .r8Typeless
      else viewOrCopyFormat = .r8G8Unorm || viewOrCopyFormat = .r8G8Typeless
    | .p010 | .p016 =>
      if plane = 0 then viewOrCopyFormat = .r16Unorm || viewOrCopyFormat = .r16Typeless
      else viewOrCopyFormat = .r16G16Unorm || viewOrCopyFormat = .r16G16Typeless
    | _ => isDepthStencilDXGIFormat allocationFormat && isDepthStencilDXGIFormat viewOrCopyFormat

/-- `MTL_DXGI_FORMAT_DESC`; of the flags the one for block-compressed formats. -/
structure FormatDesc where
  pixelFormat : PixelFormat
  bytesPerTexel : Nat
  blockCompressed : Bool

/-- `MTLQueryDXGIFormat` on a device. -/
abbrev FormatQuery := DXGIFormat → Option FormatDesc

/-- `footprint_block_height` of `ReplayBufferTextureCopy`. -/
def footprintBlockHeight (query : FormatQuery) (format : DXGIFormat) : Nat :=
  match query format with
  | some desc => if desc.blockCompressed then 4 else 1
  | none => 1

/-- The cells of a format: blocks of so many texels each way and of so many bytes. -/
structure CellFormat where
  block : Nat
  bytes : Nat
  deriving DecidableEq

/-- An element size of the traits goes before the one of the pixel format. -/
def FormatDesc.cells (desc : FormatDesc) (elementSize : Nat) : CellFormat where
  block := if desc.blockCompressed then 4 else 1
  bytes := if elementSize ≠ 0 then elementSize else desc.bytesPerTexel

namespace CellFormat

variable (c : CellFormat)

/-- The cell a texel is in. -/
def index (i : Index) : Index :=
  ⟨i.x / c.block, i.y / c.block, i.z⟩

/-- The cells that so many texels take. -/
def extent (n : Index) : Index :=
  ⟨(n.x + c.block - 1) / c.block, (n.y + c.block - 1) / c.block, n.z⟩

end CellFormat

/-! ## Resources -/

/-- `UsesSplitPlaneBacking`. -/
def usesSplitPlaneBacking (format : DXGIFormat) : Bool :=
  (getDXGIFormatTraits format).video && decide (1 < (getDXGIFormatTraits format).planeCount)

/-- The traits as the numbers of subresources ask for them: the count of planes. -/
def planeTraits (format : DXGIFormat) : FormatTraits where
  unknown := false
  mask := false
  video := (getDXGIFormatTraits format).video
  depthStencil := (getDXGIFormatTraits format).depthStencil
  planar := (getDXGIFormatTraits format).depthStencil && decide (1 <
      (getDXGIFormatTraits format).planeCount)
  format := none
  planeCount := (getDXGIFormatTraits format).planeCount
  planes := fun plane =>
    ⟨none, ((getDXGIFormatTraits format).planes plane).elementSize,
      ((getDXGIFormatTraits format).planes plane).subsampleXLog2,
      ((getDXGIFormatTraits format).planes plane).subsampleYLog2⟩
  plain := by
    intro plane f hf
    simp at hf

/-- `GetTextureLogicalPlaneCount`. -/
def logicalPlaneCount (format : DXGIFormat) : Nat :=
  getTextureLogicalPlaneCount (planeTraits format)

/-- Metal textures of a resource: one per plane where the planes are split. -/
def getTextureBackingPlaneCount (format : DXGIFormat) : Nat :=
  if usesSplitPlaneBacking format then logicalPlaneCount format else 1

/-- The Metal texture that holds the plane. -/
def getTextureBackingPlaneIndex (format : DXGIFormat) (plane : Nat) : Nat :=
  if usesSplitPlaneBacking format then plane else 0

/-- `ResolveTextureBackingFormat`: the format of the Metal texture of a plane. -/
def resolveTextureBackingFormat (format : DXGIFormat) (allowDepthStencil : Bool) (plane : Nat) :
    DXGIFormat :=
  let traits := getDXGIFormatTraits format
  if traits.video && decide (traits.planeCount ≠ 0) then
    if traits.planeCount ≤ plane then .unknown else (traits.planes plane).backingFormat
  else if !allowDepthStencil then format
  else
    match format with
    | .r16Typeless => .d16Unorm
    | .r32Typeless => .d32Float
    | _ => format

/-- The texture of a resource is one with a depth and a stencil plane. -/
def hasTwoAspects (format : DXGIFormat) : Bool :=
  !usesSplitPlaneBacking format && decide (1 < logicalPlaneCount format)

/-- The Metal texture types that the resource code creates. -/
inductive TextureType
  | texture2D
  | texture2DArray
  | texture3D
  | textureCube
  | textureCubeArray
  | texture2DMultisample
  | texture2DMultisampleArray
  deriving DecidableEq

/-- `GetTextureType`. -/
def getTextureType (desc : ResourceDesc) : TextureType :=
  if desc.dimension = .texture1D then
    if 1 < desc.depthOrArraySize.toNat then .texture2DArray else .texture2D
  else if desc.dimension = .texture3D then .texture3D
  else if 1 < desc.sampleCount.toNat then
    if 1 < desc.depthOrArraySize.toNat then .texture2DMultisampleArray else .texture2DMultisample
  else if 1 < desc.depthOrArraySize.toNat then .texture2DArray
  else .texture2D

/-- The types that a view of one plane is made of. -/
def TextureType.hasPlaneView : TextureType → Bool
  | .texture2D | .texture2DArray | .textureCube | .textureCubeArray => true
  | _ => false

/-- A resource whose textures were created. -/
structure TextureResource (query : FormatQuery) where
  desc : ResourceDesc
  format : DXGIFormat
  allowDepthStencil : Bool
  textures : Nat → FormatDesc
  kept : Kept desc
  line : desc.dimension = .texture1D → desc.height = 1
  width_lt : desc.width.toNat < 2 ^ 32
  levels : getMipLevels desc ≤ getMaxMipLevels desc
  created : ∀ backing < getTextureBackingPlaneCount format,
    query (resolveTextureBackingFormat format allowDepthStencil backing) = some (textures backing)
  /-- The pixel format has the planes of the format. This leaves out the four formats for a view of
  one plane (`R32_FLOAT_X8X24_TYPELESS`, `X32_TYPELESS_G8X24_UINT`, `R24_UNORM_X8_TYPELESS`,
  `X24_TYPELESS_G8_UINT`), which `IsSupportedResourceDesc` accepts for a resource too: its Metal
  texture then has one plane, and the traits count two. -/
  aspects : ∀ backing < getTextureBackingPlaneCount format,
    if hasTwoAspects format then
      depthStencilPlanarFlags (textures backing).pixelFormat = 3 ∧
        (textures backing).blockCompressed = false
    else depthStencilPlanarFlags (textures backing).pixelFormat ≤ 1
  bytes : ∀ plane < logicalPlaneCount format,
    0 < ((textures (getTextureBackingPlaneIndex format plane)).cells
      ((getDXGIFormatTraits format).planes plane).elementSize).bytes

/-- A buffer, at its place in the memory of its heap. -/
structure BufferResource where
  width : BitVec 64
  heapOffset : BitVec 64
  fits : heapOffset.toNat + width.toNat < 2 ^ 64

/-- A buffer or a texture. -/
inductive Resource (query : FormatQuery)
  | buffer (b : BufferResource)
  | texture (t : TextureResource query)

/-! ## Commands -/

/-- A level of a slice of a Metal texture. -/
structure Level where
  backing : Nat
  pixelFormat : PixelFormat
  cells : CellFormat
  width : Nat
  height : Nat
  level : Nat
  slice : Nat

/-- A cell of a texture, depth being aspect 0 of its texture and stencil aspect 1, or the place in a
buffer where one starts. -/
inductive Cell
  | texel (backing aspect level slice : Nat) (site : Index)
  | byte (address : Nat)

/-- The cell of the level at the site. -/
def Level.cell (l : Level) (aspect : Nat) (site : Index) : Cell :=
  .texel l.backing aspect l.level l.slice site

/-- The planes of a pixel format. -/
def aspectCount (format : PixelFormat) : Nat :=
  if depthStencilPlanarFlags format = 3 then 2 else 1

/-- A blit command, or the kernel that copies a stencil plane. -/
inductive Command
  | copyFromBufferToBuffer (srcOffset dstOffset copyLength : Nat)
  | copyFromTextureToTexture (src : Level) (srcOrigin srcSize : Index) (dst : Level)
      (dstOrigin : Index)
  | copyFromBufferToTexture (srcOffset bytesPerRow bytesPerImage : Nat) (size : Index) (dst : Level)
      (origin : Index)
  | copyFromTextureToBuffer (src : Level) (origin size : Index)
      (offset bytesPerRow bytesPerImage : Nat)
  /-- The kernels `cs_copy_depth_to_buffer_r32_float` and `cs_copy_stencil_to_buffer_r8_uint`. -/
  | copyPlaneToBuffer (src : Level) (offset bytesPerRow : Nat) (stencilPlane : Bool)
      (origin size : Index)
  /-- A draw of `fs_copy_depth_from_buffer_r32_float` or `fs_copy_stencil_from_buffer_r8_uint` in a
  scissor rectangle. -/
  | copyPlaneFromBuffer (offset bytesPerRow : Nat) (dst : Level) (stencilPlane : Bool)
      (origin size : Index)

/-- The bytes of a texel in the buffer of a plane. -/
def planeBytes (stencilPlane : Bool) : Nat :=
  if stencilPlane then 1 else 4

/-- The aspect of a Metal texture that the plane is. -/
def planeAspect (stencilPlane : Bool) : Nat :=
  if stencilPlane then 1 else 0

/-- What a command writes, and from where. A blit between textures copies every aspect of their
format. The kernels count elements of a row in 32 bits, the fragment functions bytes. -/
def Command.writes : Command → Set (Cell × Cell)
  | .copyFromBufferToBuffer srcOffset dstOffset copyLength =>
    copies ⟨copyLength, 1, 1⟩ (fun d => .byte (dstOffset + d.x)) (fun d => .byte (srcOffset + d.x))
  | .copyFromTextureToTexture src srcOrigin srcSize dst dstOrigin =>
    {p | ∃ aspect < aspectCount src.pixelFormat, p ∈ copies (src.cells.extent srcSize)
      (fun d => dst.cell aspect (dst.cells.index dstOrigin + d))
      (fun d => src.cell aspect (src.cells.index srcOrigin + d))}
  | .copyFromBufferToTexture srcOffset bytesPerRow bytesPerImage size dst origin =>
    copies (dst.cells.extent size) (fun d => dst.cell 0 (dst.cells.index origin + d))
      (fun d => .byte (srcOffset + rowMajor dst.cells.bytes bytesPerRow bytesPerImage d))
  | .copyFromTextureToBuffer src origin size offset bytesPerRow bytesPerImage =>
    copies (src.cells.extent size)
      (fun d => .byte (offset + rowMajor src.cells.bytes bytesPerRow bytesPerImage d))
      (fun d => src.cell 0 (src.cells.index origin + d))
  | .copyPlaneToBuffer src offset bytesPerRow stencilPlane origin size =>
    {p | ∃ d : Index, d.Below ⟨size.x, size.y, 1⟩ ∧ origin.x + d.x < src.width ∧
      origin.y + d.y < src.height ∧ p = (.byte (offset + planeBytes stencilPlane *
          u32 (rowMajor 1 (bytesPerRow / planeBytes stencilPlane) 0 d)),
        src.cell (planeAspect stencilPlane) ⟨origin.x + d.x, origin.y + d.y, 0⟩)}
  | .copyPlaneFromBuffer offset bytesPerRow dst stencilPlane origin size =>
    copies ⟨size.x, size.y, 1⟩
      (fun d => dst.cell (planeAspect stencilPlane) ⟨origin.x + d.x, origin.y + d.y, 0⟩)
      (fun d => .byte (offset + u32 (rowMajor (planeBytes stencilPlane) bytesPerRow 0 d)))

/-- What commands write, none of which reads what another one has written. -/
def writesOf (commands : List Command) : Set (Cell × Cell) :=
  {p | ∃ command ∈ commands, p ∈ command.writes}

/-! ## Records -/

/-- `D3D12_PLACED_SUBRESOURCE_FOOTPRINT`. -/
structure Footprint where
  offset : BitVec 64
  format : DXGIFormat
  width : Word
  height : Word
  depth : Word
  rowPitch : Word

/-- `D3D12_TEXTURE_COPY_TYPE`. -/
inductive CopyType
  | subresourceIndex
  | placedFootprint
  deriving DecidableEq

/-- One side of a texture copy, as the record keeps it. -/
structure StoredTextureCopyLocation (query : FormatQuery) where
  resource : Resource query
  type : CopyType
  placedFootprint : Footprint
  subresourceIndex : Nat

/-- `CopyTextureRegion` and its arguments. -/
structure CopyTextureRegionRecord (query : FormatQuery) where
  dst : StoredTextureCopyLocation query
  dstX : Word
  dstY : Word
  dstZ : Word
  src : StoredTextureCopyLocation query
  srcBox : Option Box

variable {query : FormatQuery}

/-! ## Replay -/

namespace TextureResource

variable (t : TextureResource query)

/-- `GetTexture`: the texture behind a plane. -/
def getTexture (plane : Nat) : Option Nat :=
  if logicalPlaneCount t.format ≤ plane then
      none else some (getTextureBackingPlaneIndex t.format plane)

/-- `GetTexturePlaneWidth`, as the texture is created with it. -/
def planeWidth (plane : Nat) : Nat :=
  let traits := getDXGIFormatTraits t.format
  u32 (max 1 (t.desc.width.toNat >>> if plane < traits.planeCount then
  (traits.planes plane).subsampleXLog2 else 0))

/-- `GetTexturePlaneHeight`. -/
def planeHeight (plane : Nat) : Nat :=
  let traits := getDXGIFormatTraits t.format
  if t.desc.dimension = .texture1D then 1
  else max 1 (t.desc.height.toNat >>> if plane < traits.planeCount then
  (traits.planes plane).subsampleYLog2 else 0)

/-- The level that Metal has of a texture. -/
def level (backing level slice : Nat) : Level where
  backing := backing
  pixelFormat := (t.textures backing).pixelFormat
  cells := (t.textures backing).cells ((getDXGIFormatTraits t.format).planes backing).elementSize
  width := max 1 (t.planeWidth backing >>> level)
  height := max 1 (t.planeHeight backing >>> level)
  level := level
  slice := slice

/-- The plane of the subresource. -/
def getSubresourcePlane (subresource : Nat) : Nat :=
  Queue.getSubresourcePlane t.desc (planeTraits t.format) subresource

/-- The mip level of the subresource. -/
def getMipLevel (subresource : Nat) : Nat :=
  Queue.getMipLevel t.desc (planeTraits t.format) subresource

/-- The array slice of the subresource. -/
def getArraySlice (subresource : Nat) : Nat :=
  Queue.getArraySlice t.desc (planeTraits t.format) subresource

/-- The differences of a box are 32 bits wide. -/
def getSubresourceSize (subresource : Nat) : Option Box → Index
  | some box =>
    ⟨(box.right - box.left).toNat, (box.bottom - box.top).toNat, (box.back - box.front).toNat⟩
  | none =>
    let mip := t.getMipLevel subresource
    let traits := getDXGIFormatTraits t.format
    let plane := t.getSubresourcePlane subresource
    let subsampleX := if plane < traits.planeCount then (traits.planes plane).subsampleXLog2 else 0
    let subsampleY := if plane < traits.planeCount then (traits.planes plane).subsampleYLog2 else 0
    ⟨max 1 (t.desc.width.toNat >>> (mip + subsampleX)),
      max 1 (t.desc.height.toNat >>> (mip + subsampleY)), if t.desc.dimension = .texture3D then
        max 1 (t.desc.depthOrArraySize.toNat >>> mip) else 1⟩

end TextureResource

/-- The corner of the source box. -/
def boxOrigin (box : Box) : Index :=
  ⟨box.left.toNat, box.top.toNat, box.front.toNat⟩

namespace StoredTextureCopyLocation

/-- The subresource that the location names; a footprint names none. -/
def subresource (location : StoredTextureCopyLocation query) : Nat :=
  match location.type with
  | .subresourceIndex => location.subresourceIndex
  | .placedFootprint => 0

end StoredTextureCopyLocation

namespace CopyTextureRegionRecord

variable (record : CopyTextureRegionRecord query)

/-- The corner of the destination. -/
def dstOrigin : Index :=
  ⟨record.dstX.toNat, record.dstY.toNat, record.dstZ.toNat⟩

/-- The part of `ReplayCopyTextureRegion` between two textures. -/
def replayTextureCopy (dst src : TextureResource query) : List Command :=
  let srcSubresource := record.src.subresource
  let dstSubresource := record.dst.subresource
  let size := src.getSubresourceSize srcSubresource record.srcBox
  let srcOrigin := record.srcBox.elim 0 boxOrigin
  let srcPlane := src.getSubresourcePlane srcSubresource
  let dstPlane := dst.getSubresourcePlane dstSubresource
  if srcPlane ≠ dstPlane then []
  else
    match dst.getTexture dstPlane, src.getTexture srcPlane with
    | some dstTexture, some srcTexture =>
      if (src.textures srcTexture).pixelFormat ≠ (dst.textures dstTexture).pixelFormat then []
      else
        [.copyFromTextureToTexture
          (src.level srcTexture (src.getMipLevel srcSubresource)
            (src.getArraySlice srcSubresource))
          srcOrigin size
          (dst.level dstTexture (dst.getMipLevel dstSubresource) (dst.getArraySlice dstSubresource))
          record.dstOrigin]
    | _, _ => []

/-- `DepthStencilBlitContext::copyPlaneFromBuffer` up to its draw. -/
def copyPlaneFromBuffer (type : TextureType) (command : Command) : List Command :=
  if type.hasPlaneView then [command] else []

/-- `ReplayBufferTextureCopy` from its two locations on. -/
def replayBufferTextureCopy (dstIsBuffer : Bool) (buffer : BufferResource)
    (texture : TextureResource query)
    (bufferLocation textureLocation : StoredTextureCopyLocation query) : List Command :=
  if bufferLocation.type ≠ .placedFootprint then []
  else
    let subresource := textureLocation.subresource
    let slice := texture.getArraySlice subresource
    let level := texture.getMipLevel subresource
    let plane := texture.getSubresourcePlane subresource
    match texture.getTexture plane with
    | none => []
    | some backing =>
      let size := texture.getSubresourceSize subresource record.srcBox
      let origin := record.srcBox.elim (if dstIsBuffer then 0 else record.dstOrigin) boxOrigin
      let footprint := bufferLocation.placedFootprint
      let bufferOffset := u64 (buffer.heapOffset.toNat + footprint.offset.toNat)
      let rowPitch := footprint.rowPitch.toNat
      if 1 < Queue.getPlaneCount texture.desc (planeTraits texture.format) ∧
          isDXGIFormatPlaneCompatible texture.format footprint.format plane = false then []
      else
        let blockHeight := footprintBlockHeight query footprint.format
        let rowCount := max 1 (u32 (footprint.height.toNat + blockHeight - 1) / blockHeight)
        let imagePitch := u32 (rowPitch * rowCount)
        let target := texture.level backing level slice
        if (getDXGIFormatTraits texture.format).depthStencil ∧
            1 < depthStencilPlanarFlags (texture.textures backing).pixelFormat then
          if size.z ≠ 1 ∨ 1 < plane then []
          else if dstIsBuffer then
            if (getTextureType texture.desc).hasPlaneView then
              [.copyPlaneToBuffer target bufferOffset rowPitch (decide (plane = 1)) origin size]
            else []
          else
            copyPlaneFromBuffer (getTextureType texture.desc)
              (.copyPlaneFromBuffer bufferOffset rowPitch target (decide (plane = 1)) origin size)
        else if dstIsBuffer then
          [.copyFromTextureToBuffer target origin size bufferOffset rowPitch imagePitch]
        else
          [.copyFromBufferToTexture bufferOffset rowPitch imagePitch size target origin]

/-- `ReplayCopyTextureRegion`. -/
def replayCopyTextureRegion : List Command :=
  match record.dst.resource, record.src.resource with
  | .texture dst, .texture src => record.replayTextureCopy dst src
  | .buffer dst, .texture src => record.replayBufferTextureCopy true dst src record.dst record.src
  | .texture dst, .buffer src => record.replayBufferTextureCopy false src dst record.src record.dst
  | .buffer _, .buffer _ => []

end CopyTextureRegionRecord

/-- The footprint of a location that has none. -/
def Footprint.zero : Footprint :=
  ⟨0, .unknown, 0, 0, 0, 0⟩

/-- A location that a record of `ReplayCopyResource` names. -/
def subresourceLocation (resource : Resource query) (index : Nat) :
    StoredTextureCopyLocation query where
  resource := resource
  type := .subresourceIndex
  placedFootprint := .zero
  subresourceIndex := index

/-- `ReplayCopyResource`, with `ReplayCopyBufferRegion` of whole buffers. -/
def replayCopyResource (dst src : Resource query) : List Command :=
  match dst, src with
  | .buffer dst, .buffer src =>
    [.copyFromBufferToBuffer src.heapOffset.toNat dst.heapOffset.toNat
      (min dst.width.toNat src.width.toNat)]
  | .texture dstTexture, .texture srcTexture =>
    (List.range (min (Queue.baseCount dstTexture.desc)
        (Queue.baseCount srcTexture.desc))).flatMap fun i =>
      CopyTextureRegionRecord.replayCopyTextureRegion
        ⟨subresourceLocation dst i, 0, 0, 0, subresourceLocation src i, none⟩
  | _, _ => []

end CopyRegion

end Dxmt
