import Mathlib.Data.BitVec

/-!
# Calls of the Metal texture functions: `AIRBuilder`

What both shader front ends emit. A scalar of the compiled shader is a `Term` over symbols of which
nothing is assumed, so that two values are the same only when they are computed in the same way from
the same operands; moving scalars into vectors and out of them is computed. An emitted instruction
is a `Call` with the name of the function and its arguments in order, as `CreateSampleCommon` and
its siblings push them.

The attributes of the functions, the declared types and what becomes of the results are left out.

Source: `src/airconv/nt/air_builder.hpp:11-236`, `nt/air_builder.cpp`.
-/

namespace Dxmt

namespace AirBuilder

/-! Components and axes are counted by literals; there are two, three or four of them. -/

scoped instance neZero_two : NeZero 2 := ⟨by decide⟩

scoped instance neZero_three : NeZero 3 := ⟨by decide⟩

scoped instance neZero_four : NeZero 4 := ⟨by decide⟩

/-- The scalar types of AIR. -/
inductive ScalarType
  | bool
  | int
  | long
  | float
  | handle
  deriving DecidableEq

/-- The functions of one and of two scalars that are not texture functions. -/
inductive ScalarOp
  | rint
  | convertToSigned
  | fpToUI
  | uiToFP
  | trunc
  | lshr32
  | bitcastFloat
  | cast (type : ScalarType)
  | nanToZero
  deriving DecidableEq

/-- The binary operations that the builders emit. -/
inductive ScalarBinOp
  | smax
  | smin
  | sub
  | add
  | fadd
  | fmax
  deriving DecidableEq

/-- A scalar value of the compiled shader. -/
inductive Term
  /-- What the shader itself computes. -/
  | operand (type : ScalarType) (id : Nat)
  | bool (b : Bool)
  | int (n : BitVec 32)
  | zero (type : ScalarType)
  | undef (type : ScalarType)
  /-- `get_item_in_argbuf_binding_table`. -/
  | tableField (type : ScalarType) (index : Nat)
  | unary (op : ScalarOp) (t : Term)
  | binary (op : ScalarBinOp) (s t : Term)
  deriving DecidableEq

namespace Term

/-- The type of a term. -/
def type : Term → ScalarType
  | operand type _ => type
  | bool _ => .bool
  | int _ => .int
  | zero type => type
  | undef type => type
  | tableField type _ => type
  | unary op _ =>
    match op with
    | .rint | .uiToFP | .bitcastFloat | .nanToZero => .float
    | .convertToSigned | .fpToUI | .trunc | .lshr32 => .int
    | .cast type => type
  | binary op _ _ =>
    match op with
    | .smax | .smin | .sub | .add => .int
    | .fadd | .fmax => .float

/-- `Constant::getNullValue`. -/
def null : ScalarType → Term
  | .int => int 0
  | type => zero type

/-- `getFloat(0)`. -/
abbrev float0 : Term := zero .float

/-- The number of an integer constant (`dyn_cast<ConstantInt>`). -/
def constant? : Term → Option (BitVec 32)
  | int n => some n
  | _ => none

/-- An operation is not one of its own operands. -/
theorem ne_binary_left (op : ScalarBinOp) (s t : Term) : s ≠ binary op s t := by
  intro h
  have hsize := congrArg sizeOf h
  simp only [binary.sizeOf_spec] at hsize
  omega

end Term

/-- A value of the `CallInst`: a scalar, a vector or a pointer that is null. -/
inductive Arg
  | scalar (t : Term)
  | vector (ts : List Term)
  | null
  deriving DecidableEq

namespace Arg

/-- The argument is a vector. -/
def isVector : Arg → Bool
  | vector _ => true
  | _ => false

/-- The scalars of the value. -/
def scalars : Arg → List Term
  | scalar t => [t]
  | vector ts => ts
  | null => []

/-- Applies a function to every component. -/
def map (f : Term → Term) : Arg → Arg
  | scalar t => scalar (f t)
  | vector ts => vector (ts.map f)
  | null => null

end Arg

/-- `Texture::ResourceKind`. -/
inductive ResourceKind
  | textureBuffer
  | texture1d
  | texture1dArray
  | texture2d
  | texture2dArray
  | texture3d
  | textureCube
  | textureCubeArray
  | texture2dMs
  | texture2dMsArray
  | depth2d
  | depth2dArray
  | depthCube
  | depthCubeArray
  | depth2dMs
  | depth2dMsArray
  deriving DecidableEq

/-- `Texture::SampleType`, of which the front ends use three. -/
inductive SampleType
  | float
  | int
  | uint
  deriving DecidableEq

/-- `Texture::MemoryAccess`. -/
inductive MemoryAccess
  | sample
  | read
  | write
  | readWrite
  deriving DecidableEq

namespace MemoryAccess

/-- The number that a texture type carries. -/
def value : MemoryAccess → BitVec 32
  | sample => 0
  | read => 1
  | write => 2
  | readWrite => 3

@[simp] theorem value_inj {a b : MemoryAccess} : a.value = b.value ↔ a = b := by
  cases a <;> cases b <;> decide

end MemoryAccess

/-- What a kind of texture needs in its calls. -/
structure TextureOperationInfo where
  isArray : Bool
  isCube : Bool
  isDepth : Bool
  isMs : Bool
  isMipmaped : Bool

/-- `TextureInfo`; the suffix of the names is the kind itself. -/
def textureInfo : ResourceKind → TextureOperationInfo
  | .textureBuffer => ⟨false, false, false, false, false⟩
  | .texture1d => ⟨false, false, false, false, true⟩
  | .texture1dArray => ⟨true, false, false, false, true⟩
  | .texture2d => ⟨false, false, false, false, true⟩
  | .texture2dArray => ⟨true, false, false, false, true⟩
  | .texture3d => ⟨false, false, false, false, true⟩
  | .textureCube => ⟨false, true, false, false, true⟩
  | .textureCubeArray => ⟨true, true, false, false, true⟩
  | .texture2dMs => ⟨false, false, false, true, false⟩
  | .texture2dMsArray => ⟨true, false, false, true, false⟩
  | .depth2d => ⟨false, false, true, false, true⟩
  | .depth2dArray => ⟨true, false, true, false, true⟩
  | .depthCube => ⟨false, true, true, false, true⟩
  | .depthCubeArray => ⟨true, true, true, false, true⟩
  | .depth2dMs => ⟨false, false, true, true, false⟩
  | .depth2dMsArray => ⟨true, false, true, true, false⟩

/-- The type of a texture. -/
structure Texture where
  kind : ResourceKind
  sampleType : SampleType
  memoryAccess : MemoryAccess
  deriving DecidableEq

/-- `AIRBuilderOptions`, without the one of the multiplications. -/
structure AIRBuilderOptions where
  sampleNaNToZero : Bool := false

/-- The atomic operations that have a sign. -/
inductive AtomicOp
  | add
  | sub
  deriving DecidableEq

/-- The function that is called, by what its name is put together from: the suffix of the kind and
the texel type with its sign. The last two are instructions of LLVM. -/
inductive Function
  | sample (kind : ResourceKind) (type : SampleType)
  | sampleCompare (kind : ResourceKind) (type : SampleType)
  | sampleGrad (kind : ResourceKind) (type : SampleType)
  | read (kind : ResourceKind) (type : SampleType) (deviceCoherent : Bool)
  | write (kind : ResourceKind) (type : SampleType) (deviceCoherent : Bool)
  | gather (kind : ResourceKind) (type : SampleType)
  | gatherCompare (kind : ResourceKind)
  | fenceTexture (kind : ResourceKind)
  | dot (length : Nat)
  | atomicGlobal (op : AtomicOp)
  | fmul
  | atomicRMW (op : AtomicOp)
  deriving DecidableEq

/-- One emitted instruction. -/
structure Call where
  function : Function
  args : List Arg
  deriving DecidableEq

/-- A constant of 32 bits. -/
def argInt (n : BitVec 32) : Arg := .scalar (.int n)

/-- A constant flag. -/
def argBool (b : Bool) : Arg := .scalar (.bool b)

/-- Arguments that are pushed under a condition. -/
def pushIf (c : Bool) (args : List Arg) : List Arg := if c then args else []

/-- `GetOffset`. -/
def getOffset (kind : ResourceKind) (immOffset : Fin 3 → BitVec 32) : Arg :=
  match kind with
  | .texture1d | .texture1dArray => argInt (immOffset 0)
  | .texture2d | .texture2dArray | .depth2d | .depth2dArray =>
    .vector [.int (immOffset 0), .int (immOffset 1)]
  | .texture3d => .vector [.int (immOffset 0), .int (immOffset 1), .int (immOffset 2)]
  | _ => .null

/-- The coordinate, with the NaNs of it replaced where the option asks for that. -/
def coordinate (options : AIRBuilderOptions) (coord : Arg) : Arg :=
  if options.sampleNaNToZero then coord.map (.unary .nanToZero) else coord

/-- The offset of the kinds that have one, after a flag. -/
def pushOffset (kind : ResourceKind) (offset : Arg) : List Arg :=
  match kind with
  | .texture1d | .texture1dArray => [argBool false, offset]
  | .texture2d | .texture2dArray | .depth2d | .depth2dArray | .texture3d => [argBool true, offset]
  | _ => []

/-- The offset of a gather. -/
def pushGatherOffset (kind : ResourceKind) (offset : Arg) : List Arg :=
  match kind with
  | .texture2d | .texture2dArray | .depth2d | .depth2dArray => [argBool true, offset]
  | _ => []

/-- The head of all sampling functions: the handles, the coordinate and the array index. -/
def pushSampled (options : AIRBuilderOptions) (kind : ResourceKind) (handle sampler : Term)
    (coord arrayIndex : Arg) : List Arg :=
  let texInfo := textureInfo kind
  [.scalar handle, .scalar sampler] ++ pushIf texInfo.isDepth [argInt 1] ++
    [coordinate options coord] ++ pushIf texInfo.isArray [arrayIndex]

/-- `CreateSampleCommon`. -/
def createSampleCommon (options : AIRBuilderOptions) (texture : Texture) (handle sampler : Term)
    (coord arrayIndex offset : Arg) (argsControlBit : Bool) (args1 args2 : Arg) : List Call :=
  [⟨.sample texture.kind texture.sampleType,
    pushSampled options texture.kind handle sampler coord arrayIndex ++
      pushOffset texture.kind offset ++
      [argBool argsControlBit, args1, args2, argInt 0]⟩]

/-- `CreateSampleCmpCommon`: nothing is emitted for a texture without depth. -/
def createSampleCmpCommon (options : AIRBuilderOptions) (texture : Texture) (handle sampler : Term)
    (coord arrayIndex reference offset : Arg) (argsControlBit : Bool) (args1 args2 : Arg) :
    List Call :=
  if (textureInfo texture.kind).isDepth then
    [⟨.sampleCompare texture.kind texture.sampleType,
      pushSampled options texture.kind handle sampler coord arrayIndex ++ [reference] ++
        pushOffset texture.kind offset ++
        [argBool argsControlBit, args1, args2, argInt 0]⟩]
  else []

/-- `CreateSampleGrad`. -/
def createSampleGrad (options : AIRBuilderOptions) (texture : Texture) (handle sampler : Term)
    (coord arrayIndex derivX derivY minLOD : Arg) (offset : Fin 3 → BitVec 32) : List Call :=
  [⟨.sampleGrad texture.kind texture.sampleType,
    pushSampled options texture.kind handle sampler coord arrayIndex ++
      [coordinate options derivX, coordinate options derivY, minLOD] ++
      pushOffset texture.kind (getOffset texture.kind offset) ++ [argInt 0]⟩]

/-- `CreateRead`. -/
def createRead (texture : Texture) (handle : Term)
    (pos arrayIndex sampleIndexOrCubeFace level : Arg) (deviceCoherent : Bool) : List Call :=
  let texInfo := textureInfo texture.kind
  [⟨.read texture.kind texture.sampleType deviceCoherent,
    [.scalar handle] ++ pushIf texInfo.isDepth [argInt 1] ++ [pos] ++
      pushIf texInfo.isCube [sampleIndexOrCubeFace] ++ pushIf texInfo.isArray [arrayIndex] ++
      pushIf texInfo.isMs [sampleIndexOrCubeFace] ++ pushIf texInfo.isMipmaped [level] ++
      [argInt texture.memoryAccess.value]⟩]

/-- `CreateWrite`. -/
def createWrite (texture : Texture) (handle : Term) (pos arrayIndex cubeFace level valVec4 : Arg)
    (deviceCoherent : Bool) : List Call :=
  let texInfo := textureInfo texture.kind
  [⟨.write texture.kind texture.sampleType deviceCoherent,
    [.scalar handle, pos] ++ pushIf texInfo.isCube [cubeFace] ++
      pushIf texInfo.isArray [arrayIndex] ++
      [valVec4] ++ pushIf texInfo.isMipmaped [level] ++ [argInt texture.memoryAccess.value]⟩]

/-- `CreateGather`: a depth texture has no component to choose. -/
def createGather (options : AIRBuilderOptions) (texture : Texture) (handle sampler : Term)
    (coord arrayIndex offset component : Arg) : List Call :=
  [⟨.gather texture.kind texture.sampleType,
    pushSampled options texture.kind handle sampler coord arrayIndex ++
      pushGatherOffset texture.kind offset ++
      pushIf (!(textureInfo texture.kind).isDepth) [component] ++ [argInt 0]⟩]

/-- `CreateGatherCompare`. -/
def createGatherCompare (options : AIRBuilderOptions) (texture : Texture) (handle sampler : Term)
    (coord arrayIndex reference offset : Arg) : List Call :=
  if (textureInfo texture.kind).isDepth then
    [⟨.gatherCompare texture.kind,
      pushSampled options texture.kind handle sampler coord arrayIndex ++ [reference] ++
        pushGatherOffset texture.kind offset ++ [argInt 0]⟩]
  else []

/-- `CreateTextureFence`. -/
def createTextureFence (texture : Texture) (handle : Term) : List Call :=
  [⟨.fenceTexture texture.kind, [.scalar handle]⟩]

/-- `CreateDotProduct`: two scalars are multiplied. -/
def createDotProduct (lhs rhs : Arg) : List Call :=
  if lhs.isVector then [⟨.dot lhs.scalars.length, [lhs, rhs]⟩] else [⟨.fmul, [lhs, rhs]⟩]

/-- `CreateAtomicRMW` on a counter in device memory. -/
def createAtomicRMW (op : AtomicOp) (ptr : Term) (val : Term) : List Call :=
  [⟨.atomicGlobal op, [.scalar ptr, .scalar val, argInt 0, argInt 3, argBool true]⟩]

end AirBuilder

end Dxmt
