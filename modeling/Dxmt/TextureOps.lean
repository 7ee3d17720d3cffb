import Dxmt.AirBuilder
import Dxmt.OperandMask

/-!
# Texture instructions of DXBC: `Converter`

`Converter::operator()` on the instructions that sample, gather, load and store textures, on dot
products and on the counters of buffers, with the textures and samplers that `setup_binding_table`
(`dxbc_converter.cpp:267-455`) makes of the shader's resources. A source operand is its four
components after the swizzle and the modifiers; what is stored in the destination is left out.

Source: `nt/dxbc_converter_base.cpp:404-616, 940-952, 1377-2024, 2540-2564`.
-/

namespace Dxmt

namespace FrontEnds

open AirBuilder Airconv

/-- `shader::common::ResourceType`. -/
inductive ResourceType
  | nonApplicable
  | textureBuffer
  | texture1D
  | texture1DArray
  | texture2D
  | texture2DArray
  | texture2DMultisampled
  | texture2DMultisampledArray
  | texture3D
  | textureCube
  | textureCubeArray
  deriving DecidableEq

/-- `to_air_resource_type`; a buffer that is not typed never gets here. -/
def toAirResourceType (type : ResourceType) (useDepth : Bool) : ResourceKind :=
  match type with
  | .nonApplicable | .textureBuffer => .textureBuffer
  | .texture1D => .texture1d
  | .texture1DArray => .texture1dArray
  | .texture2D => if useDepth then .depth2d else .texture2d
  | .texture2DArray => if useDepth then .depth2dArray else .texture2dArray
  | .texture2DMultisampled => if useDepth then .depth2dMs else .texture2dMs
  | .texture2DMultisampledArray => if useDepth then .depth2dMsArray else .texture2dMsArray
  | .texture3D => .texture3d
  | .textureCube => if useDepth then .depthCube else .textureCube
  | .textureCubeArray => if useDepth then .depthCubeArray else .textureCubeArray

/-- `lowering_texture_1d_to_2d`. -/
def loweringTexture1dTo2d : ResourceKind → ResourceKind
  | .texture1d => .texture2d
  | .texture1dArray => .texture2dArray
  | kind => kind

/-- The marks of the parser of DXIL that its front end reads. `ApplyOperationToTranslationResource`
gives them by number, in all classes, so that a mark may come from another resource, or be missing.
-/
structure DxilMarks where
  compared : Bool
  counter : Bool

/-- A texture or buffer of the shader, with the fields of the argument table that hold it. What the
shader does with it is what it does, and what the parser of DXIL takes it to do are its marks. -/
structure TextureResource where
  rangeId : Nat
  resourceType : ResourceType
  scalerType : SampleType
  sampled : Bool
  compared : Bool
  read : Bool
  written : Bool
  globalCoherent : Bool
  withCounter : Bool
  argIndex : Nat
  argMetadataIndex : Nat
  argCounterIndex : Nat
  marks : DxilMarks

/-- A sampler of the shader; the one for cubes has a field of its own. -/
structure SamplerResource where
  rangeId : Nat
  argIndex : Nat
  argCubeIndex : Nat
  argMetadataIndex : Nat
  cube_ne : argIndex ≠ argCubeIndex

/-- The resources of a shader. -/
structure Shader where
  srvs : List TextureResource
  uavs : List TextureResource
  samplers : List SamplerResource
  srvs_nodup : (srvs.map TextureResource.rangeId).Nodup
  uavs_nodup : (uavs.map TextureResource.rangeId).Nodup
  samplers_nodup : (samplers.map SamplerResource.rangeId).Nodup
  /-- Comparisons are made on shader resources only. -/
  uavs_compared : ∀ r ∈ uavs, r.compared = false

/-- `TextureResourceHandle`. -/
structure TextureResourceHandle where
  texture : Texture
  logical : ResourceKind
  handle : Term
  metadata : Term
  globalCoherent : Bool

/-- `SamplerHandle`. -/
structure SamplerHandle where
  handle : Term
  handleCube : Term
  bias : Term

/-- What the shader is compiled for. -/
structure Environment where
  options : AIRBuilderOptions
  supportsMemoryCoherency : Bool

namespace TextureResource

/-- The pointer to the texture in the argument table. -/
def handle (r : TextureResource) : Term := .tableField .handle r.argIndex

/-- The metadata field of the view. -/
def metadata (r : TextureResource) : Term := .tableField .long r.argMetadataIndex

/-- The counter field of the view. -/
def counter (r : TextureResource) : Term := .tableField .handle r.argCounterIndex

/-- The entry of `srv_range_map`. -/
def srv (r : TextureResource) : TextureResourceHandle :=
  let logical := toAirResourceType r.resourceType r.compared
  { texture := ⟨loweringTexture1dTo2d logical, r.scalerType, if r.sampled then .sample else .read⟩
    logical := logical
    handle := r.handle
    metadata := r.metadata
    globalCoherent := false }

/-- The access of a UAV in `setup_binding_table`. -/
def uavAccess (r : TextureResource) : MemoryAccess :=
  if r.written then if r.read then .readWrite else .write else .read

/-- The entry of `uav_range_map`. -/
def uav (r : TextureResource) (env : Environment) : TextureResourceHandle :=
  let logical := toAirResourceType r.resourceType false
  { texture := ⟨loweringTexture1dTo2d logical, r.scalerType, r.uavAccess⟩
    logical := logical
    handle := r.handle
    metadata := r.metadata
    globalCoherent := r.globalCoherent && env.supportsMemoryCoherency }

end TextureResource

namespace Shader

variable (s : Shader)

/-- `LoadTexture` of a shader resource. -/
def loadSrv (rangeId : Nat) : Option TextureResourceHandle :=
  (s.srvs.find? fun r => r.rangeId == rangeId).map TextureResource.srv

/-- `LoadTexture` of a UAV. -/
def loadUav (env : Environment) (rangeId : Nat) : Option TextureResourceHandle :=
  (s.uavs.find? fun r => r.rangeId == rangeId).map fun r => r.uav env

/-- `LoadCounter`: the counters are those of buffers. -/
def loadCounter (rangeId : Nat) : Option Term :=
  ((s.uavs.find? fun r => r.rangeId == rangeId).filter fun r =>
    (r.resourceType = .nonApplicable ∨ r.resourceType = .textureBuffer) ∧ r.withCounter).map
      TextureResource.counter

/-- `LoadSampler`. -/
def loadSampler (rangeId : Nat) : Option SamplerHandle :=
  (s.samplers.find? fun r => r.rangeId == rangeId).map fun r =>
    { handle := .tableField .handle r.argIndex
      handleCube := .tableField .handle r.argCubeIndex
      bias := .unary .bitcastFloat (.unary .trunc (.tableField .long r.argMetadataIndex)) }

end Shader

/-- A source operand after its swizzle and modifiers. -/
abbrev SrcOperand := Fin 4 → Term

/-- The first component. -/
abbrev kMaskComponentX : Mask := 0b1
/-- The second component. -/
abbrev kMaskComponentY : Mask := 0b10
/-- The third component. -/
abbrev kMaskComponentZ : Mask := 0b100
/-- The fourth component. -/
abbrev kMaskComponentW : Mask := 0b1000
/-- The first two components. -/
abbrev kMaskVecXY : Mask := 0b11
/-- The first three components. -/
abbrev kMaskVecXYZ : Mask := 0b111
/-- All components. -/
abbrev kMaskAll : Mask := 0b1111

/-- `LoadOperand`: a scalar for a mask of one component. -/
def loadOperand (src : SrcOperand) (mask : Mask) : Arg :=
  match mask.components with
  | [c] => .scalar (src c)
  | cs => .vector (cs.map src)

/-- `CreateInsertElement` of the one coordinate into the null vector of two. -/
def lowerCoordinate (t : Term) : Arg := .vector [t, Term.null t.type]

/-- `DecodeTextureMinLODClamp`: the low half is a float. -/
def decodeTextureMinLODClamp (metadata : Term) :
    Term := .unary .bitcastFloat (.unary .trunc metadata)

/-- `DecodeTextureArrayLength`: the high half. -/
def decodeTextureArrayLength (metadata : Term) : Term := .unary .trunc (.unary .lshr32 metadata)

/-- `ClampArrayIndex`: rounded to an integer, then clamped to the array. -/
def clampArrayIndex (shaderValue metadata : Term) : Term :=
  let integer := Term.unary .convertToSigned (.unary .rint shaderValue)
  .binary .smin (.binary .smax integer (.int 0))
    (.binary .sub (decodeTextureArrayLength metadata) (.int 1))

/-- `MinLODClamp`: the clamp of the view and that of the instruction. -/
def minLODClamp (metadata : Term) (shaderClamp : Option SrcOperand) : Term :=
  match shaderClamp with
  | some clamp => .binary .fmax (decodeTextureMinLODClamp metadata) (clamp 0)
  | none => decodeTextureMinLODClamp metadata

/-- The instructions, with the operands that their lowering reads. -/
inductive Inst
  | sample (srcAddress : SrcOperand) (srcResource srcSampler : Nat) (offsets : Fin 3 → BitVec 32)
      (minLodClamp : Option SrcOperand)
  | sampleLOD (srcAddress : SrcOperand) (srcResource srcSampler : Nat) (srcLod : SrcOperand)
      (offsets : Fin 3 → BitVec 32)
  | sampleBias (srcAddress : SrcOperand) (srcResource srcSampler : Nat) (srcBias : SrcOperand)
      (offsets : Fin 3 → BitVec 32) (minLodClamp : Option SrcOperand)
  | sampleDerivative (srcAddress : SrcOperand) (srcResource srcSampler : Nat)
      (srcXDerivative srcYDerivative : SrcOperand) (offsets : Fin 3 → BitVec 32)
      (minLodClamp : Option SrcOperand)
  | sampleCompare (srcAddress : SrcOperand) (srcResource srcSampler : Nat)
      (srcReference : SrcOperand)
      (offsets : Fin 3 → BitVec 32) (minLodClamp : Option SrcOperand) (levelZero : Bool)
  | gather (srcAddress : SrcOperand) (srcResource srcSampler : Nat) (gatherChannel : BitVec 32)
      (offset : SrcOperand)
  | gatherCompare (srcAddress : SrcOperand) (srcResource srcSampler : Nat)
      (srcReference offset : SrcOperand)
  | load (srcAddress : SrcOperand) (srcResource : Nat) (srcSampleIndex : Option SrcOperand)
      (offsets : Fin 3 → BitVec 32)
  | loadUAVTyped (srcAddress : SrcOperand) (srcUav : Nat)
  | storeUAVTyped (srcAddress : SrcOperand) (dst : Nat) (src : SrcOperand)
  | dotProduct (dimension : Nat) (src0 src1 : SrcOperand)
  | atomicImmIncrement (uav : Nat)
  | atomicImmDecrement (uav : Nat)

/-- The coordinate and the array index of a sampling instruction, and whether it takes the sampler
for cubes. -/
structure SampleAddress where
  coord : Arg
  arrayIndex : Arg
  cube : Bool

namespace SampleAddress

/-- `SamplerHandle` of the switch. -/
def samplerHandle (a : SampleAddress) (sampler : SamplerHandle) : Term :=
  if a.cube then sampler.handleCube else sampler.handle

end SampleAddress

/-- The switch of `InstSample`, `InstSampleLOD`, `InstSampleBias` and `InstSampleDerivative`. -/
def sampleAddress (logical : ResourceKind) (src : SrcOperand) (metadata : Term) :
    Option SampleAddress :=
  match logical with
  | .texture1d => some ⟨lowerCoordinate (src 0), .null, false⟩
  | .texture1dArray =>
    some ⟨lowerCoordinate (src 0), .scalar (clampArrayIndex (src 1) metadata), false⟩
  | .depth2d | .texture2d => some ⟨loadOperand src kMaskVecXY, .null, false⟩
  | .depth2dArray | .texture2dArray =>
    some ⟨loadOperand src kMaskVecXY, .scalar (clampArrayIndex (src 2) metadata), false⟩
  | .texture3d => some ⟨loadOperand src kMaskVecXYZ, .null, false⟩
  | .textureCube | .depthCube => some ⟨loadOperand src kMaskVecXYZ, .null, true⟩
  | .textureCubeArray | .depthCubeArray =>
    some ⟨loadOperand src kMaskVecXYZ, .scalar (clampArrayIndex (src 3) metadata), true⟩
  | _ => none

/-- `DDX` and `DDY` of `InstSampleDerivative`, which go with the coordinate. -/
def derivative (logical : ResourceKind) (src : SrcOperand) : Arg :=
  match logical with
  | .texture1d | .texture1dArray => lowerCoordinate (src 0)
  | .depth2d | .texture2d | .depth2dArray | .texture2dArray => loadOperand src kMaskVecXY
  | _ => loadOperand src kMaskVecXYZ

/-- The switch of `InstSampleCompare`: the depth textures and, with nothing to compare, the 3D ones.
-/
def compareAddress (logical : ResourceKind) (src : SrcOperand) (metadata : Term) :
    Option SampleAddress :=
  match logical with
  | .depth2d | .depth2dArray | .texture3d | .depthCube | .depthCubeArray =>
    sampleAddress logical src metadata
  | _ => none

/-- The switch of `InstGather`, with its offset. -/
def gatherAddress (logical : ResourceKind) (src offset : SrcOperand) (metadata : Term) :
    Option (SampleAddress × Arg) :=
  match logical with
  | .depth2d | .texture2d | .depth2dArray | .texture2dArray =>
    (sampleAddress logical src metadata).map fun a => (a, loadOperand offset kMaskVecXY)
  | .textureCube | .depthCube | .textureCubeArray | .depthCubeArray =>
    (sampleAddress logical src metadata).map fun a => (a, loadOperand offset kMaskVecXYZ)
  | _ => none

/-- The switch of `InstGatherCompare`. -/
def gatherCompareAddress (logical : ResourceKind) (src offset : SrcOperand) (metadata : Term) :
    Option (SampleAddress × Arg) :=
  match logical with
  | .depth2d | .depth2dArray | .depthCube | .depthCubeArray =>
    gatherAddress logical src offset metadata
  | _ => none

/-- The address and the array index of a load or store. -/
structure TexelAddress where
  address : Arg
  arrayIndex : Arg

/-- `DecodeTextureBufferOffset`: the low half. -/
def decodeTextureBufferOffset (metadata : Term) : Term := .unary .trunc metadata

/-- The switch of `InstLoadUAVTyped` and `InstStoreUAVTyped`. -/
def texelAddress (logical : ResourceKind) (src : SrcOperand) (metadata : Term) :
    Option TexelAddress :=
  match logical with
  | .textureBuffer =>
    some ⟨.scalar (.binary .add (src 0) (decodeTextureBufferOffset metadata)), .null⟩
  | .texture1d => some ⟨.vector [src 0, .int 0], .null⟩
  | .texture1dArray => some ⟨.vector [src 0, .int 0], .scalar (src 1)⟩
  | .texture2d | .depth2d => some ⟨loadOperand src kMaskVecXY, .null⟩
  | .texture2dArray | .depth2dArray => some ⟨loadOperand src kMaskVecXY, .scalar (src 2)⟩
  | .texture3d => some ⟨loadOperand src kMaskVecXYZ, .null⟩
  | _ => none

/-- The switch of `InstLoad`, which has the multisampled textures as well. -/
def loadAddress (logical : ResourceKind) (src : SrcOperand) (metadata : Term) :
    Option TexelAddress :=
  match logical with
  | .texture2dMs | .depth2dMs => some ⟨loadOperand src kMaskVecXY, .null⟩
  | .texture2dMsArray | .depth2dMsArray => some ⟨loadOperand src kMaskVecXY, .scalar (src 2)⟩
  | _ => texelAddress logical src metadata

/-- The constant `Offset` of `InstLoad`. -/
def loadOffset (logical : ResourceKind) (offsets : Fin 3 → BitVec 32) : List (BitVec 32) :=
  match logical with
  | .textureBuffer => [offsets 0]
  | .texture1d | .texture1dArray => [offsets 0, 0]
  | .texture3d => [offsets 0, offsets 1, offsets 2]
  | _ => [offsets 0, offsets 1]

/-- The address with the offset, which is added unless it is null. -/
def addOffset (address : Arg) (offset : List (BitVec 32)) : Arg :=
  if offset.all fun o => o = 0 then address
  else
    match address with
    | .scalar t => .scalar (.binary .add t (.int (offset.headD 0)))
    | .vector ts => .vector (List.zipWith (fun t o => .binary .add t (.int o)) ts offset)
    | .null => .null

/-- The kind has samples. -/
def isMultisampled : ResourceKind → Bool
  | .texture2dMs | .depth2dMs | .texture2dMsArray | .depth2dMsArray => true
  | _ => false

/-- `Converter::operator()`. An instruction on a texture that the switch does not have emits
nothing. -/
def convert (s : Shader) (env : Environment) : Inst → List Call
  | .sample src resource sampler offsets clamp =>
    match s.loadSrv resource, s.loadSampler sampler with
    | some tex, some smp =>
      match sampleAddress tex.logical src tex.metadata with
      | some a =>
        createSampleCommon env.options tex.texture tex.handle
          (a.samplerHandle smp) a.coord a.arrayIndex
          (getOffset tex.texture.kind offsets) false (.scalar smp.bias)
          (.scalar (minLODClamp tex.metadata clamp))
      | none => []
    | _, _ => []
  | .sampleLOD src resource sampler lod offsets =>
    match s.loadSrv resource, s.loadSampler sampler with
    | some tex, some smp =>
      match sampleAddress tex.logical src tex.metadata with
      | some a =>
        createSampleCommon env.options tex.texture tex.handle
          (a.samplerHandle smp) a.coord a.arrayIndex
          (getOffset tex.texture.kind offsets) true (.scalar (lod 0)) (.scalar .float0)
      | none => []
    | _, _ => []
  | .sampleBias src resource sampler bias offsets clamp =>
    match s.loadSrv resource, s.loadSampler sampler with
    | some tex, some smp =>
      match sampleAddress tex.logical src tex.metadata with
      | some a =>
        createSampleCommon env.options tex.texture tex.handle
          (a.samplerHandle smp) a.coord a.arrayIndex
          (getOffset tex.texture.kind offsets) false (.scalar (.binary .fadd smp.bias (bias 0)))
          (.scalar (minLODClamp tex.metadata clamp))
      | none => []
    | _, _ => []
  | .sampleDerivative src resource sampler ddx ddy offsets clamp =>
    match s.loadSrv resource, s.loadSampler sampler with
    | some tex, some smp =>
      match sampleAddress tex.logical src tex.metadata with
      | some a =>
        createSampleGrad env.options tex.texture tex.handle
          (a.samplerHandle smp) a.coord a.arrayIndex
          (derivative tex.logical ddx) (derivative tex.logical ddy)
          (.scalar (minLODClamp tex.metadata clamp)) offsets
      | none => []
    | _, _ => []
  | .sampleCompare src resource sampler reference offsets clamp levelZero =>
    match s.loadSrv resource, s.loadSampler sampler with
    | some tex, some smp =>
      match compareAddress tex.logical src tex.metadata with
      | some a =>
        if levelZero then
          createSampleCmpCommon env.options tex.texture tex.handle (a.samplerHandle smp) a.coord
            a.arrayIndex (.scalar (reference 0)) (getOffset tex.texture.kind offsets) true
              (.scalar .float0)
            (.scalar .float0)
        else
          createSampleCmpCommon env.options tex.texture tex.handle (a.samplerHandle smp) a.coord
            a.arrayIndex (.scalar (reference 0)) (getOffset tex.texture.kind offsets) false
            (.scalar smp.bias) (.scalar (minLODClamp tex.metadata clamp))
      | none => []
    | _, _ => []
  | .gather src resource sampler channel offset =>
    match s.loadSrv resource, s.loadSampler sampler with
    | some tex, some smp =>
      match gatherAddress tex.logical src offset tex.metadata with
      | some (a, offset) =>
        createGather env.options tex.texture tex.handle (a.samplerHandle smp) a.coord a.arrayIndex
          offset
          (argInt channel)
      | none => []
    | _, _ => []
  | .gatherCompare src resource sampler reference offset =>
    match s.loadSrv resource, s.loadSampler sampler with
    | some tex, some smp =>
      match gatherCompareAddress tex.logical src offset tex.metadata with
      | some (a, offset) =>
        createGatherCompare env.options tex.texture tex.handle
          (a.samplerHandle smp) a.coord a.arrayIndex
          (.scalar (reference 0)) offset
      | none => []
    | _, _ => []
  | .load src resource sampleIndex offsets =>
    match s.loadSrv resource with
    | some tex =>
      match loadAddress tex.logical src tex.metadata with
      | some a =>
        let sample := if isMultisampled tex.logical then
          (match sampleIndex with | some i => .scalar (i 0) | none => .null) else .null
        createRead tex.texture tex.handle (addOffset a.address (loadOffset tex.logical offsets))
          a.arrayIndex sample (.scalar (src 3)) tex.globalCoherent
      | none => []
    | none => []
  | .loadUAVTyped src uav =>
    match s.loadUav env uav with
    | some tex =>
      match texelAddress tex.logical src tex.metadata with
      | some a =>
        (if tex.texture.memoryAccess = .readWrite then createTextureFence tex.texture tex.handle
        else []) ++
          createRead tex.texture tex.handle a.address a.arrayIndex .null (argInt 0)
            tex.globalCoherent
      | none => []
    | none => []
  | .storeUAVTyped src uav value =>
    match s.loadUav env uav with
    | some tex =>
      match texelAddress tex.logical src tex.metadata with
      | some a =>
        createWrite tex.texture tex.handle a.address a.arrayIndex .null (argInt 0)
          (loadOperand value kMaskAll) tex.globalCoherent
      | none => []
    | none => []
  | .dotProduct dimension src0 src1 =>
    match dimension with
    | 2 => createDotProduct (loadOperand src0 kMaskVecXY) (loadOperand src1 kMaskVecXY)
    | 3 => createDotProduct (loadOperand src0 kMaskVecXYZ) (loadOperand src1 kMaskVecXYZ)
    | 4 => createDotProduct (loadOperand src0 kMaskAll) (loadOperand src1 kMaskAll)
    | _ => []
  | .atomicImmIncrement uav =>
    match s.loadCounter uav with
    | some ptr => createAtomicRMW .add ptr (.int 1)
    | none => []
  | .atomicImmDecrement uav =>
    match s.loadCounter uav with
    | some ptr => createAtomicRMW .sub ptr (.int 1)
    | none => []

end FrontEnds

end Dxmt
