import Dxmt.DxilTextureOps

/-!
# The two shader front ends on one operation

An `Operation` is a texture, vector or counter operation that D3D has in both bytecodes, with its
operands. It is written as an instruction of DXBC (`Operation.dxbc`), as a call of DXIL
(`Operation.dxil`) and as the Metal call that D3D asks for (`Operation.metal`): all texel offsets,
array indices rounded and clamped, the LOD clamps of view and instruction, the biases of sampler and
instruction, the sampler for cubes, and all components of a dot product. An explicit level takes the
place of clamp and bias.

Result: `meets_iff_alike`. `Converter` emits that call but for comparisons on 1D textures.
`LowerDxilCall` emits it for few operations: it takes no offset of a load or sample, no bias, clamp
or cube sampler, does not round array indices, counts the operands of levels, biases, gradients and
gathers wrongly, takes every texture for one of floats, and takes it for a depth texture by a mark
that may be wrong.
-/

namespace Dxmt

namespace FrontEnds

open AirBuilder

/-- A scalar operand of one type. -/
abbrev TypedTerm (type : ScalarType) := { t : Term // t.type = type }

/-- The number of coordinates of a texture. -/
def coordinateCount : ResourceType → Nat
  | .texture1D | .texture1DArray => 1
  | .texture2D | .texture2DArray | .texture2DMultisampled | .texture2DMultisampledArray => 2
  | _ => 3

/-- The coordinate that chooses the element of an array. -/
def arrayCoordinate : ResourceType → Option (Fin 4)
  | .texture1DArray => some 1
  | .texture2DArray | .texture2DMultisampledArray => some 2
  | .textureCubeArray => some 3
  | _ => none

/-- The type has cube faces. -/
def isCube : ResourceType → Bool
  | .textureCube | .textureCubeArray => true
  | _ => false

/-- All coordinates of the texture, with the array element. -/
def operandCount (type : ResourceType) : Nat :=
  coordinateCount type + if (arrayCoordinate type).isSome then 1 else 0

/-- The number of texel offsets; a cube has none. -/
def offsetCount (type : ResourceType) : Nat := if isCube type then 0 else coordinateCount type

/-- The offsets of the instruction where the texture has them. -/
def texelOffset (type : ResourceType) (offset : Fin 3 → BitVec 32) (i : Fin 3) : BitVec 32 :=
  if i.val < offsetCount type then offset i else 0

/-- The textures that can be sampled. -/
def sampleable : ResourceType → Bool
  | .texture1D | .texture1DArray | .texture2D | .texture2DArray | .texture3D | .textureCube
  | .textureCubeArray => true
  | _ => false

/-- The type can be sampled with a comparison. -/
def comparable : ResourceType → Bool
  | .texture3D => false
  | type => sampleable type

/-- The type can be gathered from. -/
def gatherable : ResourceType → Bool
  | .texture2D | .texture2DArray | .textureCube | .textureCubeArray => true
  | _ => false

/-- The type can be stored to. -/
def storable : ResourceType → Bool
  | .texture1D | .texture1DArray | .texture2D | .texture2DArray | .texture3D => true
  | _ => false

/-- The type has samples. -/
def multisampled : ResourceType → Bool
  | .texture2DMultisampled | .texture2DMultisampledArray => true
  | _ => false

/-- What a sampling operation is about. -/
structure Sampling where
  tex : TextureResource
  smp : SamplerResource
  coord : Fin 4 → TypedTerm .float

/-- The kind of texture that Metal has for it; there are no 1D textures. -/
def metalKind (type : ResourceType) (depth : Bool) : ResourceKind :=
  match type with
  | .texture1D | .texture2D => if depth then .depth2d else .texture2d
  | .texture1DArray | .texture2DArray => if depth then .depth2dArray else .texture2dArray
  | .texture2DMultisampled => if depth then .depth2dMs else .texture2dMs
  | .texture2DMultisampledArray => if depth then .depth2dMsArray else .texture2dMsArray
  | .texture3D => .texture3d
  | .textureCube => if depth then .depthCube else .textureCube
  | .textureCubeArray => if depth then .depthCubeArray else .textureCubeArray
  | .nonApplicable | .textureBuffer => .textureBuffer

/-- A texture is a depth texture where it is compared, and a 1D one where the operation itself
compares. -/
def metalTexture (tex : TextureResource) (compares : Bool) (access : MemoryAccess) : Texture :=
  ⟨metalKind tex.resourceType (if coordinateCount tex.resourceType = 1 then
    compares else tex.compared),
    tex.scalerType, access⟩

/-- The coordinates as a vector; the missing one of a 1D texture is null. -/
def metalCoord {type : ScalarType} (count : Nat) (x y z : TypedTerm type) : List Term :=
  match count with
  | 1 => [x.val, Term.null type]
  | 2 => [x.val, y.val]
  | _ => [x.val, y.val, z.val]

/-- The element of the array for a number that is not an integer: rounded, then clamped. -/
def clampedElement (t length : Term) : Term :=
  .binary .smin (.binary .smax (.unary .convertToSigned (.unary .rint t)) (.int 0))
    (.binary .sub length (.int 1))

/-- The length of the array, in the upper half of the metadata. -/
def arrayLength (tex : TextureResource) : Term := .unary .trunc (.unary .lshr32 tex.metadata)

/-- The LOD clamp of the view, in the lower half. -/
def viewClamp (tex : TextureResource) : Term := .unary .bitcastFloat (.unary .trunc tex.metadata)

namespace Sampling

variable (a : Sampling)

/-- The sampler handle; a cube has one of its own. -/
def sampler : Term :=
  .tableField .handle (if isCube a.tex.resourceType then a.smp.argCubeIndex else a.smp.argIndex)

/-- The bias that the sampler's metadata holds. -/
def bias : Term := .unary .bitcastFloat (.unary .trunc (.tableField .long a.smp.argMetadataIndex))

/-- Three coordinates as the argument that the type takes. -/
def vector (c : Fin 3 → TypedTerm .float) : Arg :=
  .vector (metalCoord (coordinateCount a.tex.resourceType) (c 0) (c 1) (c 2))

/-- The coordinates of the operation. -/
def coordinates : Arg :=
  .vector (metalCoord (coordinateCount a.tex.resourceType) (a.coord 0) (a.coord 1) (a.coord 2))

/-- The array element, clamped to the array. -/
def element : Arg :=
  match arrayCoordinate a.tex.resourceType with
  | some i => .scalar (clampedElement (a.coord i).val (arrayLength a.tex))
  | none => .null

/-- The greater one of the two clamps. -/
def clamp (instruction : Option (TypedTerm .float)) : Term :=
  match instruction with
  | some t => .binary .fmax (viewClamp a.tex) t.val
  | none => viewClamp a.tex

/-- The immediate offset, as the texture's kind takes it. -/
def offset (immediate : Fin 3 → BitVec 32) : Arg :=
  getOffset (metalTexture a.tex false .sample).kind (texelOffset a.tex.resourceType immediate)

end Sampling

/-- The coordinates of a texel, with the offset added unless it is null. -/
def texel (type : ResourceType) (coord : Fin 3 → TypedTerm .int) (immediate : Fin 3 → BitVec 32) :
    Arg :=
  let coords := metalCoord (coordinateCount type) (coord 0) (coord 1) (coord 2)
  let offset := texelOffset type immediate
  if offset 0 = 0 ∧ offset 1 = 0 ∧ offset 2 = 0 then .vector coords
  else .vector (List.zipWith (fun t o => .binary .add t (.int o)) coords [offset 0, offset 1,
  offset 2])

/-- The array element of a load or store, which is an integer and stays as it is. -/
def texelElement (type : ResourceType) (coord : Fin 3 → TypedTerm .int) : Arg :=
  match type with
  | .texture1DArray => .scalar (coord 1).val
  | .texture2DArray | .texture2DMultisampledArray => .scalar (coord 2).val
  | _ => .null

/-- The operations of both bytecodes. The increment of a counter is up or down. -/
inductive Operation
  | sample (a : Sampling) (offset : Fin 3 → BitVec 32) (clamp : Option (TypedTerm .float))
  | sampleBias (a : Sampling) (offset : Fin 3 → BitVec 32) (bias : TypedTerm .float)
      (clamp : Option (TypedTerm .float))
  | sampleLevel (a : Sampling) (offset : Fin 3 → BitVec 32) (lod : TypedTerm .float)
  | sampleGrad (a : Sampling) (offset : Fin 3 → BitVec 32) (ddx ddy : Fin 3 → TypedTerm .float)
      (clamp : Option (TypedTerm .float))
  | sampleCmp (a : Sampling) (offset : Fin 3 → BitVec 32) (reference : TypedTerm .float)
      (clamp : Option (TypedTerm .float))
  | sampleCmpLevelZero (a : Sampling) (offset : Fin 3 → BitVec 32) (reference : TypedTerm .float)
  | gather (a : Sampling) (offset : Fin 2 → TypedTerm .int) (channel : BitVec 32)
  | gatherCmp (a : Sampling) (offset : Fin 2 → TypedTerm .int) (reference : TypedTerm .float)
  | load (tex : TextureResource) (coord : Fin 3 → TypedTerm .int) (mipOrSample : TypedTerm .int)
      (offset : Fin 3 → BitVec 32)
  | loadUav (tex : TextureResource) (coord : Fin 3 → TypedTerm .int)
  | store (tex : TextureResource) (coord : Fin 3 → TypedTerm .int) (type : ScalarType)
      (value : Fin 4 → TypedTerm type)
  | dot (length : Fin 3) (a b : Fin 4 → TypedTerm .float) (vectors : Bool)
  | updateCounter (buffer : TextureResource) (up : Bool)

namespace Operation

/-- The resources of the operation are resources of the shader, and D3D has the operation on them.
-/
def Valid (s : Shader) : Operation → Prop
  | sample a _ _ | sampleBias a _ _ _ | sampleLevel a _ _ | sampleGrad a _ _ _ _ =>
    a.tex ∈ s.srvs ∧ a.smp ∈ s.samplers ∧ sampleable a.tex.resourceType = true
  | sampleCmp a _ _ _ | sampleCmpLevelZero a _ _ =>
    a.tex ∈ s.srvs ∧ a.smp ∈ s.samplers ∧ comparable a.tex.resourceType = true ∧ a.tex.compared =
      true
  | gather a _ _ => a.tex ∈ s.srvs ∧ a.smp ∈ s.samplers ∧ gatherable a.tex.resourceType = true
  | gatherCmp a _ _ =>
    a.tex ∈ s.srvs ∧ a.smp ∈ s.samplers ∧ gatherable a.tex.resourceType = true ∧ a.tex.compared =
      true
  | load tex _ _ _ =>
    tex ∈ s.srvs ∧ (storable tex.resourceType = true ∨ multisampled tex.resourceType = true)
  | loadUav tex _ => tex ∈ s.uavs ∧ storable tex.resourceType = true
  | store tex _ _ _ => tex ∈ s.uavs ∧ storable tex.resourceType = true ∧ tex.written = true
  | dot _ _ _ _ => True
  | updateCounter buffer _ =>
    buffer ∈ s.uavs ∧ buffer.resourceType = .nonApplicable ∧ buffer.withCounter = true

/-! ## As an instruction of DXBC -/

/-- An operand of one component, in all four. -/
def replicated (t : Term) : SrcOperand := fun _ => t

/-- The address of a load: the coordinates, and the level in the last component. -/
def loadOperands (coord : Fin 3 → TypedTerm .int) (level : Term) : SrcOperand :=
  ![(coord 0).val, (coord 1).val, (coord 2).val, level]

/-- The operation as the DXBC front end decodes it. -/
def dxbc : Operation → Inst
  | sample a offset clamp =>
    .sample (fun i => (a.coord i).val) a.tex.rangeId a.smp.rangeId
      (texelOffset a.tex.resourceType offset)
      (clamp.map fun t => replicated t.val)
  | sampleBias a offset bias clamp =>
    .sampleBias (fun i => (a.coord i).val) a.tex.rangeId a.smp.rangeId (replicated bias.val)
      (texelOffset a.tex.resourceType offset)
      (clamp.map fun t => replicated t.val)
  | sampleLevel a offset lod =>
    .sampleLOD (fun i => (a.coord i).val) a.tex.rangeId a.smp.rangeId (replicated lod.val)
      (texelOffset a.tex.resourceType offset)
  | sampleGrad a offset ddx ddy clamp =>
    .sampleDerivative (fun i => (a.coord i).val) a.tex.rangeId a.smp.rangeId
      ![(ddx 0).val, (ddx 1).val, (ddx 2).val, .undef .float]
      ![(ddy 0).val, (ddy 1).val, (ddy 2).val, .undef .float]
      (texelOffset a.tex.resourceType offset)
      (clamp.map fun t => replicated t.val)
  | sampleCmp a offset reference clamp =>
    .sampleCompare (fun i => (a.coord i).val) a.tex.rangeId a.smp.rangeId (replicated reference.val)
      (texelOffset a.tex.resourceType offset)
      (clamp.map fun t => replicated t.val) false
  | sampleCmpLevelZero a offset reference =>
    .sampleCompare (fun i => (a.coord i).val) a.tex.rangeId a.smp.rangeId (replicated reference.val)
      (texelOffset a.tex.resourceType offset)
      none true
  | gather a offset channel =>
    .gather (fun i => (a.coord i).val) a.tex.rangeId a.smp.rangeId channel
      ![(offset 0).val, (offset 1).val, .int 0, .int 0]
  | gatherCmp a offset reference =>
    .gatherCompare (fun i => (a.coord i).val) a.tex.rangeId a.smp.rangeId (replicated reference.val)
      ![(offset 0).val, (offset 1).val, .int 0, .int 0]
  | load tex coord mipOrSample offset =>
    .load (loadOperands coord mipOrSample.val) tex.rangeId
      (if multisampled tex.resourceType then some (replicated mipOrSample.val) else none)
      (texelOffset tex.resourceType offset)
  | loadUav tex coord => .loadUAVTyped (loadOperands coord (.undef .int)) tex.rangeId
  | store tex coord _ value =>
    .storeUAVTyped (loadOperands coord (.undef .int)) tex.rangeId fun i => (value i).val
  | dot length a b _ => .dotProduct (length.val + 2) (fun i => (a i).val) fun i => (b i).val
  | updateCounter buffer true => .atomicImmIncrement buffer.rangeId
  | updateCounter buffer false => .atomicImmDecrement buffer.rangeId

/-! ## As a call of DXIL -/

/-- Scalar operands, of which the first are used. -/
def padded (type : ScalarType) (used : Nat) (ts : List Term) : List Operand :=
  ts.mapIdx fun i t => .value (.scalar (if i < used then t else .undef type))

/-- The operands that all sampling operations begin with: handles and coordinates. -/
def samplingOperands (a : Sampling) : List Operand :=
  [.handle .srv a.tex.rangeId, .handle .sampler a.smp.rangeId] ++
    padded .float (operandCount a.tex.resourceType)
      [(a.coord 0).val, (a.coord 1).val, (a.coord 2).val, (a.coord 3).val]

/-- The immediate offsets of a DXIL call, undefined beyond the type's. -/
def offsetOperands (a : Sampling) (offset : Fin 3 → BitVec 32) : List Operand :=
  padded .int (offsetCount a.tex.resourceType) [.int (offset 0), .int (offset 1), .int (offset 2)]

/-- The offsets of a DXIL gather, which need not be constant. -/
def gatherOffsetOperands (a : Sampling) (offset : Fin 2 → TypedTerm .int) : List Operand :=
  padded .int (offsetCount a.tex.resourceType) [(offset 0).val, (offset 1).val]

/-- A scalar operand. -/
def operand (t : Term) : Operand := .value (.scalar t)

/-- The clamp operand, undefined where the operation has none. -/
def clampOperand (clamp : Option (TypedTerm .float)) : Operand :=
  operand ((clamp.map Subtype.val).getD (.undef .float))

/-- One gradient of a DXIL call. -/
def gradientOperands (a : Sampling) (d : Fin 3 → TypedTerm .float) : List Operand :=
  padded .float (coordinateCount a.tex.resourceType) [(d 0).val, (d 1).val, (d 2).val]

/-- The texel coordinates of a DXIL call. -/
def texelOperands (tex : TextureResource) (coord : Fin 3 → TypedTerm .int) : List Operand :=
  padded .int (operandCount tex.resourceType) [(coord 0).val, (coord 1).val, (coord 2).val]

/-- The components of a dot product. -/
def components (length : Fin 3) (a : Fin 4 → TypedTerm .float) : List Term :=
  match length with
  | 0 => [(a 0).val, (a 1).val]
  | 1 => [(a 0).val, (a 1).val, (a 2).val]
  | 2 => [(a 0).val, (a 1).val, (a 2).val, (a 3).val]

/-- The operation as a DXIL call. -/
def dxil : Operation → DxilCall
  | sample a offset clamp =>
    ⟨.sample, samplingOperands a ++ (offsetOperands a offset ++ [clampOperand clamp])⟩
  | sampleBias a offset bias clamp =>
    ⟨.sampleBias, samplingOperands a ++ (offsetOperands a offset ++
      [operand bias.val, clampOperand clamp])⟩
  | sampleLevel a offset lod =>
    ⟨.sampleLevel, samplingOperands a ++ (offsetOperands a offset ++ [operand lod.val])⟩
  | sampleGrad a offset ddx ddy clamp =>
    ⟨.sampleGrad, samplingOperands a ++ (offsetOperands a offset ++ gradientOperands a ddx ++
      gradientOperands a ddy ++ [clampOperand clamp])⟩
  | sampleCmp a offset reference clamp =>
    ⟨.sampleCmp, samplingOperands a ++
      (offsetOperands a offset ++ [operand reference.val, clampOperand clamp])⟩
  | sampleCmpLevelZero a offset reference =>
    ⟨.sampleCmpLevelZero, samplingOperands a ++ (offsetOperands a offset ++
      [operand reference.val])⟩
  | gather a offset channel =>
    ⟨.textureGather, samplingOperands a ++ (gatherOffsetOperands a offset ++
      [operand (.int channel)])⟩
  | gatherCmp a offset reference =>
    ⟨.textureGatherCmp, samplingOperands a ++
      (gatherOffsetOperands a offset ++ [operand (.int 0), operand reference.val])⟩
  | load tex coord mipOrSample offset =>
    ⟨.textureLoad, [.handle .srv tex.rangeId, operand mipOrSample.val] ++ texelOperands tex coord ++
      padded .int (coordinateCount tex.resourceType) [.int (offset 0), .int (offset 1),
        .int (offset 2)]⟩
  | loadUav tex coord =>
    ⟨.textureLoad, [.handle .uav tex.rangeId, operand (.undef .int)] ++ texelOperands tex coord ++
      padded .int 0 [.undef .int, .undef .int, .undef .int]⟩
  | store tex coord _ value =>
    ⟨.textureStore, [.handle .uav tex.rangeId] ++ texelOperands tex coord ++
      [operand (value 0).val, operand (value 1).val, operand (value 2).val, operand (value 3).val,
        operand (.int 15)]⟩
  | dot length a b true =>
    ⟨.fDot, [.value (.vector (components length a)), .value (.vector (components length b))]⟩
  | dot length a b false =>
    ⟨match length with | 0 => .dot2 | 1 => .dot3 | 2 => .dot4,
      (components length a ++ components length b).map operand⟩
  | updateCounter buffer up =>
    ⟨.bufferUpdateCounter, [.handle .uav buffer.rangeId, operand (.int (if up then 1 else -1))]⟩

/-! ## As the Metal call of D3D -/

/-- The AIR calls that the operation stands for. -/
def metal (env : Environment) : Operation → List Call
  | sample a offset clamp =>
    createSampleCommon env.options (metalTexture a.tex false .sample) a.tex.handle a.sampler
      a.coordinates
      a.element (a.offset offset) false (.scalar a.bias) (.scalar (a.clamp clamp))
  | sampleBias a offset bias clamp =>
    createSampleCommon env.options (metalTexture a.tex false .sample) a.tex.handle a.sampler
      a.coordinates
      a.element (a.offset offset) false (.scalar (.binary .fadd a.bias bias.val))
      (.scalar (a.clamp clamp))
  | sampleLevel a offset lod =>
    createSampleCommon env.options (metalTexture a.tex false .sample) a.tex.handle a.sampler
      a.coordinates
      a.element (a.offset offset) true (.scalar lod.val) (.scalar .float0)
  | sampleGrad a offset ddx ddy clamp =>
    createSampleGrad env.options (metalTexture a.tex false .sample) a.tex.handle a.sampler
      a.coordinates
      a.element (a.vector ddx) (a.vector ddy) (.scalar (a.clamp clamp))
      (texelOffset a.tex.resourceType offset)
  | sampleCmp a offset reference clamp =>
    createSampleCmpCommon env.options (metalTexture a.tex true .sample) a.tex.handle a.sampler
      a.coordinates
      a.element (.scalar reference.val) (a.offset offset) false (.scalar a.bias)
      (.scalar (a.clamp clamp))
  | sampleCmpLevelZero a offset reference =>
    createSampleCmpCommon env.options (metalTexture a.tex true .sample) a.tex.handle a.sampler
      a.coordinates
      a.element (.scalar reference.val) (a.offset offset) true (.scalar .float0) (.scalar .float0)
  | gather a offset channel =>
    createGather env.options (metalTexture a.tex false .sample) a.tex.handle a.sampler a.coordinates
      a.element (.vector [(offset 0).val, (offset 1).val]) (argInt channel)
  | gatherCmp a offset reference =>
    createGatherCompare env.options (metalTexture a.tex true .sample) a.tex.handle a.sampler
      a.coordinates
      a.element (.scalar reference.val) (.vector [(offset 0).val, (offset 1).val])
  | load tex coord mipOrSample offset =>
    createRead (metalTexture tex false (if tex.sampled then .sample else .read)) tex.handle
      (texel tex.resourceType coord offset) (texelElement tex.resourceType coord)
      (.scalar mipOrSample.val) (.scalar mipOrSample.val) false
  | loadUav tex coord =>
    (if tex.written ∧ tex.read then
      createTextureFence (metalTexture tex false .readWrite) tex.handle else []) ++
      createRead (metalTexture tex false tex.uavAccess) tex.handle
        (texel tex.resourceType coord fun _ => 0)
        (texelElement tex.resourceType coord) .null (argInt 0)
        (tex.globalCoherent && env.supportsMemoryCoherency)
  | store tex coord _ value =>
    createWrite (metalTexture tex false tex.uavAccess) tex.handle
      (texel tex.resourceType coord fun _ => 0)
      (texelElement tex.resourceType coord) .null (argInt 0)
      (.vector [(value 0).val, (value 1).val, (value 2).val, (value 3).val])
      (tex.globalCoherent && env.supportsMemoryCoherency)
  | dot length a b _ =>
    [⟨.dot (length.val + 2), [.vector (components length a), .vector (components length b)]⟩]
  | updateCounter buffer up => createAtomicRMW (if up then .add else .sub) buffer.counter (.int 1)

end Operation

end FrontEnds

end Dxmt
