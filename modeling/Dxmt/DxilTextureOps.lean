import Dxmt.TextureOps
import Mathlib.Data.Fin.VecNotation

/-!
# Texture operations of DXIL: `LowerDxilCall`

`LowerDxilCall` on the operations that `Converter` has as well. The operands of a call are counted
with the opcode as the first. `CreateHandle` and `AnnotateHandle` are resolved already: a handle
operand is the class and the id of its resource.

The resources are those of the metadata of the module, the runtime data or the pipeline state
validation, which have a kind and no return type. Resource definitions, with a dimension and a
return type, are read only where neither metadata nor runtime data lists a resource, and are left
out.

Source: `src/airconv/dxil_air_converter.cpp:254-325, 432-648, 755-985, 1326-1329, 1469-1672`.
-/

namespace Dxmt

namespace FrontEnds

open AirBuilder

/-- `DxilTranslationResourceClass`, the unknown one left out. -/
inductive DxilTranslationResourceClass
  | srv
  | uav
  | cbv
  | sampler
  | unknown
  deriving DecidableEq

/-- What the lowering reads of a `DxilTranslationResourceInfo`. -/
structure DxilTranslationResourceInfo where
  resourceClass : DxilTranslationResourceClass
  id : Nat
  resourceKind : Nat
  dimension : Nat
  returnType : Nat
  compared : Bool

/-- `ToResourceType`. -/
def toResourceType (resourceKind dimension : Nat) : ResourceType :=
  match resourceKind with
  | 1 => .texture1D
  | 2 => .texture2D
  | 3 => .texture2DMultisampled
  | 4 => .texture3D
  | 5 => .textureCube
  | 6 => .texture1DArray
  | 7 => .texture2DArray
  | 8 => .texture2DMultisampledArray
  | 9 => .textureCubeArray
  | 10 => .textureBuffer
  | 11 | 12 | 13 | 14 | 15 | 16 | 17 | 18 => .nonApplicable
  | _ =>
    match dimension with
    | 1 => .textureBuffer
    | 2 => .texture1D
    | 3 => .texture2D
    | 4 => .texture2DMultisampled
    | 5 => .texture3D
    | 6 => .textureCube
    | 7 => .texture1DArray
    | 8 => .texture2DArray
    | 9 => .texture2DMultisampledArray
    | 10 => .textureCubeArray
    | _ => .nonApplicable

/-- `ToScalerDataType`. -/
def toScalerDataType (returnType : Nat) : SampleType :=
  match returnType with
  | 2 => .uint
  | 3 => .int
  | _ => .float

namespace DxilTranslationResourceInfo

variable (r : DxilTranslationResourceInfo)

/-- The type that the resource's kind and dimension give. -/
def resourceType : ResourceType := toResourceType r.resourceKind r.dimension

/-- `BuildTexture`. -/
def buildTexture (access : MemoryAccess) : Texture :=
  ⟨loweringTexture1dTo2d (toAirResourceType r.resourceType r.compared),
    toScalerDataType r.returnType, access⟩

/-- `IsTexture1DResource`. -/
def isTexture1D : Bool :=
  match r.resourceType with
  | .texture1D | .texture1DArray => true
  | _ => false

/-- `TextureCoordinateCount`. -/
def textureCoordinateCount : Nat :=
  match r.resourceType with
  | .texture1D | .texture1DArray | .textureBuffer => 1
  | .texture2D | .texture2DArray | .texture2DMultisampled | .texture2DMultisampledArray => 2
  | _ => 3

end DxilTranslationResourceInfo

/-- The operations by name, without the prefix of the class. -/
inductive DxilOpcode
  | sample
  | sampleBias
  | sampleLevel
  | sampleGrad
  | sampleCmp
  | sampleCmpLevelZero
  | textureLoad
  | textureStore
  | bufferUpdateCounter
  | textureGather
  | textureGatherCmp
  | dot2
  | dot3
  | dot4
  | fDot
  deriving DecidableEq

/-- `name.starts_with("Sample")`. -/
def DxilOpcode.isSample : DxilOpcode → Bool
  | .sample | .sampleBias | .sampleLevel | .sampleGrad | .sampleCmp | .sampleCmpLevelZero => true
  | _ => false

/-- An operand of a call: a value or a handle. -/
inductive Operand
  | value (v : Arg)
  | handle (resourceClass : DxilTranslationResourceClass) (rangeId : Nat)

/-- `CallBase`, with the operands after the opcode. -/
structure DxilCall where
  opcode : DxilOpcode
  operands : List Operand

/-- Why a call is not lowered: the reason of `UnsupportedDxilCall`. -/
abbrev Unsupported := String

namespace DxilCall

variable (call : DxilCall)

/-- `OperandValue`, null past the last operand. -/
def operandValue (index : Nat) : Arg :=
  match call.operands[index - 1]? with
  | some (.value v) => v
  | _ => .null

/-- `ConstantOperandU32` and `ConstantOperandI32`. -/
def constantOperand (index : Nat) : Option (BitVec 32) :=
  match call.operandValue index with
  | .scalar t => t.constant?
  | _ => none

/-- `ResolveHandle`; the default handle has class 0, which is a shader resource. -/
def resolveHandle (index : Nat) : DxilTranslationResourceClass × Nat :=
  match call.operands[index - 1]? with
  | some (.handle resourceClass rangeId) => (resourceClass, rangeId)
  | _ => (.srv, 0)

/-- `ComponentFromOperand`. -/
def componentFromOperand (index : Nat) : Term :=
  match call.operandValue index with
  | .scalar t => t
  | _ => .int 0

end DxilCall

/-- `CastValue` between scalars. -/
def castValue (t : Term) (type : ScalarType) : Term :=
  if t.type = type then t else .unary (.cast type) t

/-- A component of a coordinate, which is made a float where the operation asks for one. -/
def toFloating (floating : Bool) (t : Term) : Term :=
  if floating && t.type = .int then .unary .uiToFP t else t

/-- `BuildVector4`: all components have the type of the first. -/
def buildVector4 (values : List Arg) : Arg :=
  let type := (values.findSome? fun v =>
    match v with | .scalar t => some t.type | _ => none).getD .int
  .vector (values.map fun v => match v with | .scalar t => castValue t type | _ => Term.null type)

/-- `VectorFromOperands`: the first components of a vector of four. -/
def vectorFromOperands (call : DxilCall) (first count : Nat) (floating : Bool) : Arg :=
  let values := (List.range count).map fun i =>
      toFloating floating (call.componentFromOperand (first + i))
  match values with
  | [] => .null
  | [t] => .scalar t
  | t :: ts => .vector (t :: ts.map fun u => castValue u t.type)

/-- `TextureCoord`. -/
def textureCoord (resource : DxilTranslationResourceInfo) (call : DxilCall) (first : Nat)
    (floating : Bool) : Arg :=
  if resource.isTexture1D then
    let x := toFloating floating (call.componentFromOperand first)
    .vector [x, Term.null x.type]
  else vectorFromOperands call first resource.textureCoordinateCount floating

/-- `TextureArrayIndex`. -/
def textureArrayIndex (resource : DxilTranslationResourceInfo) (call : DxilCall) (first : Nat)
    (floating : Bool) : Arg :=
  let index (operand : Nat) : Arg :=
    let value := call.componentFromOperand operand
    if floating && value.type = .float then .scalar (.unary .fpToUI value)
    else .scalar (castValue value .int)
  match resource.resourceType with
  | .texture1DArray => index (first + 1)
  | .texture2DArray | .texture2DMultisampledArray => index (first + 2)
  | .textureCubeArray => index (first + 3)
  | _ => .null

/-- The number that `ToResourceType` takes back. -/
def resourceKindOf : ResourceType → Nat
  | .nonApplicable => 11
  | .textureBuffer => 10
  | .texture1D => 1
  | .texture1DArray => 6
  | .texture2D => 2
  | .texture2DArray => 7
  | .texture2DMultisampled => 3
  | .texture2DMultisampledArray => 8
  | .texture3D => 4
  | .textureCube => 5
  | .textureCubeArray => 9

namespace TextureResource

/-- `BuildTranslationResource`: the metadata has the kind, but no table says what a texel is, so
that the return type stays 0. -/
def translation (r : TextureResource) (resourceClass : DxilTranslationResourceClass) :
    DxilTranslationResourceInfo :=
  { resourceClass := resourceClass
    id := r.rangeId
    resourceKind := resourceKindOf r.resourceType
    dimension := 0
    returnType := 0
    compared := r.marks.compared }

end TextureResource

namespace Shader

variable (s : Shader)

/-- The textures and buffers of `ctx.translation.resources`. -/
def translation : List DxilTranslationResourceInfo :=
  s.srvs.map (fun r => r.translation .srv) ++ s.uavs.map fun r => r.translation .uav

/-- `FindResource`. -/
def findResource (resourceClass : DxilTranslationResourceClass) (id : Nat) :
    Option DxilTranslationResourceInfo :=
  s.translation.find? fun r => r.resourceClass = resourceClass ∧ r.id = id

/-- `GetTextureHandle`: the index of the handle is not used, as in shader model 5.0. -/
def getTextureHandle (env : Environment) (handle : DxilTranslationResourceClass × Nat) :
    Option (Term × DxilTranslationResourceInfo) := do
  let resource ← s.findResource handle.1 handle.2
  let range ← if handle.1 = .uav then s.loadUav env handle.2 else s.loadSrv handle.2
  return (range.handle, resource)

/-- `LoadCounter` with the mark of the parser. -/
def loadDxilCounter (rangeId : Nat) : Option Term :=
  ((s.uavs.find? fun r => r.rangeId == rangeId).filter fun r =>
    (r.resourceType = .nonApplicable ∨ r.resourceType = .textureBuffer) ∧ r.marks.counter).map
      TextureResource.counter

/-- `GetSamplerHandle`. -/
def getSamplerHandle (handle : DxilTranslationResourceClass × Nat) : Option Term :=
  (s.loadSampler handle.2).map SamplerHandle.handle

end Shader

/-- `IsDepthTexture`. -/
def isDepthTexture (texture : Texture) : Bool :=
  match texture.kind with
  | .depth2d | .depth2dArray | .depthCube | .depthCubeArray | .depth2dMs | .depth2dMsArray => true
  | _ => false

/-- The branch of `LowerDxilCall` for the sampling operations, once their handles are found. -/
def lowerSample (call : DxilCall) (texture sampler : Term)
    (resource : DxilTranslationResourceInfo) :
    Except Unsupported (List Call) :=
  let airTexture := resource.buildTexture .sample
  let coord := textureCoord resource call 3 true
  let arrayIndex := textureArrayIndex resource call 3 true
  let offset := getOffset airTexture.kind fun _ => 0
  match call.opcode with
  | .sampleLevel =>
    .ok (createSampleCommon {} airTexture texture sampler coord arrayIndex offset true
      (call.operandValue 8)
      (.scalar .float0))
  | .sampleBias =>
    .ok (createSampleCommon {} airTexture texture sampler coord arrayIndex offset false
      (call.operandValue 8) (.scalar .float0))
  | .sampleGrad =>
    .ok (createSampleGrad {} airTexture texture sampler coord arrayIndex
      (textureCoord resource call 8 true) (textureCoord resource call 11 true)
      (.scalar .float0) fun _ => 0)
  | .sampleCmp =>
    if isDepthTexture airTexture then
      .ok (createSampleCmpCommon {} airTexture texture sampler coord arrayIndex
        (call.operandValue 10) offset
        false (.scalar .float0) (.scalar .float0))
    else .error "SampleCmp requires a depth texture resource"
  | .sampleCmpLevelZero =>
    if isDepthTexture airTexture then
      .ok (createSampleCmpCommon {} airTexture texture sampler coord arrayIndex
        (call.operandValue 10) offset
        true (.scalar .float0) (.scalar .float0))
    else .error "SampleCmp requires a depth texture resource"
  | _ =>
    .ok (createSampleCommon {} airTexture texture sampler coord arrayIndex offset false
      (.scalar .float0)
      (.scalar .float0))

/-- The branch for the gathers. -/
def lowerGather (call : DxilCall) (texture sampler : Term)
    (resource : DxilTranslationResourceInfo) :
    Except Unsupported (List Call) :=
  let airTexture := resource.buildTexture .sample
  let coord := textureCoord resource call 3 true
  let arrayIndex := textureArrayIndex resource call 3 true
  let immOffset : Fin 3 → BitVec 32 :=
    ![(call.constantOperand 8).getD 0, (call.constantOperand 9).getD 0, 0]
  let offset := getOffset airTexture.kind immOffset
  match call.opcode with
  | .textureGatherCmp =>
    if isDepthTexture airTexture then
      .ok (createGatherCompare {} airTexture texture sampler coord arrayIndex
        (call.operandValue 11) offset)
    else .error "TextureGatherCmp requires a depth texture resource"
  | _ =>
    .ok (createGather {} airTexture texture sampler coord arrayIndex offset
      (argInt ((call.constantOperand 10).getD 0)))

/-- `BuildDxilMath` on the dot products. -/
def buildDxilMath (call : DxilCall) : List Call :=
  createDotProduct (call.operandValue 1) (call.operandValue 2)

/-- `LowerDxilCall`. The options of the builder are the default ones. -/
def lowerDxilCall (s : Shader) (env : Environment) (call : DxilCall) :
    Except Unsupported (List Call) :=
  match call.opcode with
  | .textureLoad =>
    match s.getTextureHandle env (call.resolveHandle 1) with
    | some (handle, resource) =>
      .ok (createRead (resource.buildTexture .read) handle (textureCoord resource call 3 false)
        (textureArrayIndex resource call 3 false) .null (call.operandValue 2) false)
    | none => .error "texture load without resolved texture handle"
  | .textureStore =>
    match s.getTextureHandle env (call.resolveHandle 1) with
    | some (handle, resource) =>
      .ok (createWrite (resource.buildTexture .write) handle (textureCoord resource call 2 false)
        (textureArrayIndex resource call 2 false) .null (argInt 0)
        (buildVector4 [call.operandValue 5, call.operandValue 6, call.operandValue 7,
        call.operandValue 8])
        false)
    | none => .error "texture store without resolved texture handle"
  | .textureGather | .textureGatherCmp =>
    match s.getTextureHandle env (call.resolveHandle 1),
        s.getSamplerHandle (call.resolveHandle 2) with
    | some (texture, resource), some sampler => lowerGather call texture sampler resource
    | _, _ => .error "gather without resolved texture/sampler handle"
  | .bufferUpdateCounter =>
    if (call.resolveHandle 1).1 = .uav then
      match s.loadDxilCounter (call.resolveHandle 1).2 with
      | some ptr =>
        match call.constantOperand 2 with
        | some inc =>
          if inc = 1 then .ok [⟨.atomicRMW .add, [.scalar ptr, argInt 1]⟩]
          else if inc = -1 then .ok [⟨.atomicRMW .sub, [.scalar ptr, argInt 1]⟩]
          else .error "counter update increment must be constant +1 or -1"
        | none => .error "counter update increment must be constant +1 or -1"
      | none => .error "counter update without resolved UAV counter"
    else .error "counter update requires a UAV handle"
  | .dot2 | .dot3 | .dot4 | .fDot => .ok (buildDxilMath call)
  | _ =>
    match s.getTextureHandle env (call.resolveHandle 1),
        s.getSamplerHandle (call.resolveHandle 2) with
    | some (texture, resource), some sampler => lowerSample call texture sampler resource
    | _, _ => .error "sample without resolved texture/sampler handle"

end FrontEnds

end Dxmt
