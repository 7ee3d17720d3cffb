import Dxmt.ByteWords

/-!
# Root signatures: `SerializeRootSignature`, `ParseRootSignatureBlob`

A description of version 1.0, 1.1 or 1.2 is cloned into a storage with the parameters of both kinds.
The writer lays the parameters out for a target version: headers first, whose offsets are patched
when the data behind them is written, then the static samplers, in a container with one part. The
reader follows the offsets.

The writer takes the records of version 1.1 for every version but 1.0; the reader takes them for
version value 2 only. A blob of version 1.2 is written with records of 24 bytes for a range and 12
for a descriptor and read with 20 and 8.

Results: `parse_serialize` says what the reader makes of every written blob, and `round_trip_iff`
when this is the original. The pointers of a description are lists. An enumeration of a record is
its word, a float of a sampler its bits.

Source: `d3d12_root_signature.cpp:21-829`, `DXILParser.cpp:2223-2270`.
-/

namespace Dxmt

/-- `D3D_ROOT_SIGNATURE_VERSION`, with the values that are supported. -/
inductive RootSignatureVersion where
  | v1_0
  | v1_1
  | v1_2
deriving DecidableEq

/-- `D3D12_DESCRIPTOR_RANGE`. -/
structure DescriptorRange0 where
  rangeType : Word
  numDescriptors : Word
  baseShaderRegister : Word
  registerSpace : Word
  offsetInDescriptorsFromTableStart : Word
deriving DecidableEq

/-- `D3D12_DESCRIPTOR_RANGE1`. -/
structure DescriptorRange1 where
  rangeType : Word
  numDescriptors : Word
  baseShaderRegister : Word
  registerSpace : Word
  flags : Word
  offsetInDescriptorsFromTableStart : Word
deriving DecidableEq

/-- `D3D12_ROOT_CONSTANTS`. -/
structure RootConstants where
  shaderRegister : Word := 0
  registerSpace : Word := 0
  num32BitValues : Word := 0
deriving DecidableEq

/-- `D3D12_ROOT_DESCRIPTOR`. -/
structure RootDescriptor0 where
  shaderRegister : Word
  registerSpace : Word
deriving DecidableEq

/-- `D3D12_ROOT_DESCRIPTOR1`, which has flags. -/
structure RootDescriptor1 where
  shaderRegister : Word := 0
  registerSpace : Word := 0
  flags : Word := 0
deriving DecidableEq

/-- The parameter types of a root descriptor. -/
inductive RootDescriptorType where
  | cbv
  | srv
  | uav
deriving DecidableEq

/-- The type of a parameter with the member of the union that it selects. -/
inductive RootParameterData (Range Descriptor : Type) where
  | descriptorTable (ranges : List Range)
  | constants32Bit (constants : RootConstants)
  | descriptor (type : RootDescriptorType) (descriptor : Descriptor)
  | other (type : Word)
deriving DecidableEq

/-- A parameter with ranges and descriptors of one version. -/
structure RootParameter (Range Descriptor : Type) where
  shaderVisibility : Word
  data : RootParameterData Range Descriptor
deriving DecidableEq

/-- `D3D12_ROOT_PARAMETER`. -/
abbrev RootParameter0 := RootParameter DescriptorRange0 RootDescriptor0

/-- `D3D12_ROOT_PARAMETER1`. -/
abbrev RootParameter1 := RootParameter DescriptorRange1 RootDescriptor1

/-- `D3D12_STATIC_SAMPLER_DESC`. -/
structure StaticSampler where
  filter : Word
  addressU : Word
  addressV : Word
  addressW : Word
  mipLODBias : Word
  maxAnisotropy : Word
  comparisonFunc : Word
  borderColor : Word
  minLOD : Word
  maxLOD : Word
  shaderRegister : Word
  registerSpace : Word
  shaderVisibility : Word
deriving DecidableEq

/-- `RootSignatureParameter`, what the command list binds to. -/
structure RootSignatureParameter where
  parameterType : Word
  visibility : Word
  ranges : List DescriptorRange1 := []
  descriptor : RootDescriptor1 := {}
  constants : RootConstants := {}
  descriptorFlags : Word := 0
deriving DecidableEq

/-- `RootSignatureStorage`; both descriptions have the same flags. -/
structure RootSignatureStorage where
  version : RootSignatureVersion
  flags : Word
  parameters10 : List RootParameter0
  parameters11 : List RootParameter1
  staticSamplers : List StaticSampler
  parameters : List RootSignatureParameter
deriving DecidableEq

/-- `D3D12_VERSIONED_ROOT_SIGNATURE_DESC`. -/
inductive VersionedRootSignatureDesc where
  | desc10 (flags : Word) (parameters : List RootParameter0) (staticSamplers : List StaticSampler)
  | desc11 (flags : Word) (parameters : List RootParameter1) (staticSamplers : List StaticSampler)
  | desc12 (flags : Word) (parameters : List RootParameter1) (staticSamplers : List StaticSampler)

namespace RootSignature

/-- The tag of the part with the root signature. -/
def rts0FourCC : Word := 0x30535452

/-- The tag of the container. -/
def dxbcFourCC : Word := 0x43425844

/-- `D3D12_ROOT_PARAMETER_TYPE` of a descriptor. -/
def RootDescriptorType.value : RootDescriptorType → Word
  | .cbv => 2
  | .srv => 3
  | .uav => 4

variable {Range Descriptor : Type}

/-- `D3D12_ROOT_PARAMETER_TYPE`. -/
def parameterType : RootParameterData Range Descriptor → Word
  | .descriptorTable _ => 0
  | .constants32Bit _ => 1
  | .descriptor type _ => RootDescriptorType.value type
  | .other type => type

/-- `D3D_ROOT_SIGNATURE_VERSION`. -/
def versionValue : RootSignatureVersion → Word
  | .v1_2 => 3
  | .v1_1 => 2
  | .v1_0 => 1

/-- The version that a value of the blob stands for. -/
def versionFromValue (value : Word) : RootSignatureVersion :=
  if value = 3 then .v1_2 else if value = 2 then .v1_1 else .v1_0

/-! ## Cloning a description -/

/-- A range without flags. -/
def DescriptorRange0.toRange1 (range : DescriptorRange0) : DescriptorRange1 :=
  { range with flags := 0 }

/-- A range, its flags dropped. -/
def DescriptorRange1.toRange0 (range : DescriptorRange1) : DescriptorRange0 :=
  { range with }

/-- The parameter with other kinds of records. -/
def mapParameter {Range' Descriptor' : Type} (f : Range → Range') (g : Descriptor → Descriptor')
    (parameter : RootParameter Range Descriptor) : RootParameter Range' Descriptor' where
  shaderVisibility := parameter.shaderVisibility
  data :=
    match parameter.data with
    | .descriptorTable ranges => .descriptorTable (ranges.map f)
    | .constants32Bit constants => .constants32Bit constants
    | .descriptor type descriptor => .descriptor type (g descriptor)
    | .other type => .other type

/-- The flags of a record are `NONE`. -/
def toParameter1 : RootParameter0 → RootParameter1 :=
  mapParameter DescriptorRange0.toRange1 fun descriptor => { descriptor with flags := 0 }

/-- The flags of a record are dropped. -/
def toParameter0 : RootParameter1 → RootParameter0 :=
  mapParameter DescriptorRange1.toRange0 fun descriptor => { descriptor with }

/-- One round of `BuildBindingParameters`; the kinds of records agree but for their flags. -/
def bindingParameter (parameter : RootParameter1) : RootSignatureParameter :=
  match parameter.data with
  | .descriptorTable ranges =>
    { parameterType := parameterType parameter.data
      visibility := parameter.shaderVisibility
      ranges := ranges }
  | .constants32Bit constants =>
    { parameterType := parameterType parameter.data
      visibility := parameter.shaderVisibility
      constants := constants }
  | .descriptor _ descriptor =>
    { parameterType := parameterType parameter.data
      visibility := parameter.shaderVisibility
      descriptor := descriptor
      descriptorFlags := descriptor.flags }
  | .other _ =>
    { parameterType := parameterType parameter.data
      visibility := parameter.shaderVisibility }

/-- `BuildBindingParameters`; with version 1.0 the flags of the records are `NONE`. -/
def buildBindingParameters (version : RootSignatureVersion) (parameters10 : List RootParameter0)
    (parameters11 : List RootParameter1) : List RootSignatureParameter :=
  if version = .v1_0 then parameters10.map fun parameter =>
      bindingParameter (toParameter1 parameter)
  else parameters11.map bindingParameter

/-- The cost of a parameter, in `UINT`s; `none` for an unknown type. -/
def rootCost : RootParameterData Range Descriptor → Option Word
  | .descriptorTable _ => some 1
  | .constants32Bit constants => some (constants.num32BitValues + 1)
  | .descriptor _ _ => some 2
  | .other _ => none

/-- The ranges of a table are not empty, and samplers (type 3) have a table of their own. -/
def validateTable (type numDescriptors : Range → Word) (ranges : List Range) : Bool :=
  ranges.all (fun range => decide (numDescriptors range ≠ 0)) &&
    !(ranges.any (fun range => decide (type range = 3)) &&
      ranges.any fun range => decide (type range ≠ 3))

/-- `ValidateDesc0` and `ValidateDesc1`, with `D3D12_MAX_ROOT_COST`. -/
def validateDesc (type numDescriptors : Range → Word)
    (parameters : List (RootParameter Range Descriptor)) : Bool :=
  (parameters.all fun parameter =>
    match parameter.data with
    | .descriptorTable ranges => validateTable type numDescriptors ranges
    | _ => true) &&
  match parameters.mapM fun parameter => rootCost parameter.data with
  | none => false
  | some costs => decide (costs.foldl (· + ·) 0 ≤ 64)

/-- A description of version 1.0, kept for both versions. -/
def cloneFromDesc0 (flags : Word) (parameters : List RootParameter0)
    (staticSamplers : List StaticSampler) : RootSignatureStorage where
  version := .v1_0
  flags := flags
  parameters10 := parameters
  parameters11 := parameters.map toParameter1
  staticSamplers := staticSamplers
  parameters := buildBindingParameters .v1_0 parameters (parameters.map toParameter1)

/-- A description of a later version, kept for both versions. -/
def cloneFromDesc1 (version : RootSignatureVersion) (flags : Word)
    (parameters : List RootParameter1) (staticSamplers : List StaticSampler) :
    RootSignatureStorage where
  version := version
  flags := flags
  parameters10 := parameters.map toParameter0
  parameters11 := parameters
  staticSamplers := staticSamplers
  parameters := buildBindingParameters version (parameters.map toParameter0) parameters

/-- `CloneFromVersionedDesc`: a description that passes the check is kept. -/
def cloneFromVersionedDesc : VersionedRootSignatureDesc → Option RootSignatureStorage
  | .desc10 flags parameters staticSamplers =>
    if validateDesc DescriptorRange0.rangeType DescriptorRange0.numDescriptors parameters then
      some (cloneFromDesc0 flags parameters staticSamplers)
    else none
  | .desc11 flags parameters staticSamplers =>
    if validateDesc DescriptorRange1.rangeType DescriptorRange1.numDescriptors parameters then
      some (cloneFromDesc1 .v1_1 flags parameters staticSamplers)
    else none
  | .desc12 flags parameters staticSamplers =>
    if validateDesc DescriptorRange1.rangeType DescriptorRange1.numDescriptors parameters then
      some (cloneFromDesc1 .v1_2 flags parameters staticSamplers)
    else none

/-! ## Writing -/

/-- A range of version 1.0. -/
def writeRange0 (data : List Byte) (range : DescriptorRange0) : List Byte :=
  data ++ writeU32 range.rangeType ++ writeU32 range.numDescriptors ++
    writeU32 range.baseShaderRegister ++ writeU32 range.registerSpace ++
    writeU32 range.offsetInDescriptorsFromTableStart

/-- A range of a later version. -/
def writeRange1 (data : List Byte) (range : DescriptorRange1) : List Byte :=
  data ++ writeU32 range.rangeType ++ writeU32 range.numDescriptors ++
    writeU32 range.baseShaderRegister ++ writeU32 range.registerSpace ++ writeU32 range.flags ++
    writeU32 range.offsetInDescriptorsFromTableStart

/-- The number of ranges and their offset, which is behind these two words. -/
def writeTableHeader (data : List Byte) (count : Nat) : List Byte :=
  let data := data ++ writeU32 (BitVec.ofNat 32 count)
  data ++ writeU32 (BitVec.ofNat 32 (data.length + 4))

/-- Root constants. -/
def writeConstants (data : List Byte) (constants : RootConstants) : List Byte :=
  data ++ writeU32 constants.shaderRegister ++ writeU32 constants.registerSpace ++
    writeU32 constants.num32BitValues

/-- The data of a parameter for version 1.0. -/
def writeParameter0 (data : List Byte) (parameter : RootParameter0) : List Byte :=
  match parameter.data with
  | .descriptorTable ranges => ranges.foldl writeRange0 (writeTableHeader data ranges.length)
  | .constants32Bit constants => writeConstants data constants
  | .descriptor _ descriptor =>
    data ++ writeU32 descriptor.shaderRegister ++ writeU32 descriptor.registerSpace
  | .other _ => data

/-- The data of a parameter for versions 1.1 and 1.2. -/
def writeParameter1 (data : List Byte) (parameter : RootParameter1) : List Byte :=
  match parameter.data with
  | .descriptorTable ranges => ranges.foldl writeRange1 (writeTableHeader data ranges.length)
  | .constants32Bit constants => writeConstants data constants
  | .descriptor _ descriptor =>
    data ++ writeU32 descriptor.shaderRegister ++ writeU32 descriptor.registerSpace ++
      writeU32 descriptor.flags
  | .other _ => data

/-- A header of a parameter, with zero for its offset, and the position of the offset. -/
def writeParameterHeader (data : List Byte) (parameter : RootParameter Range Descriptor) :
    List Byte × Nat :=
  let data := data ++ writeU32 (parameterType parameter.data) ++ writeU32 parameter.shaderVisibility
  (data ++ writeU32 0, data.length)

/-- The headers of the parameters, and where the offsets of their bodies are put. -/
def writeParameterHeaders (data : List Byte) :
    List (RootParameter Range Descriptor) → List Byte × List Nat
  | [] => (data, [])
  | parameter :: parameters =>
    let (data, patch) := writeParameterHeader data parameter
    let (data, patches) := writeParameterHeaders data parameters
    (data, patch :: patches)

/-- Patches every offset with the position of the data, and writes the data there. -/
def writeParameterData (write : List Byte → RootParameter Range Descriptor → List Byte)
    (data : List Byte) : List (RootParameter Range Descriptor) → List Nat → List Byte
  | parameter :: parameters, patch :: patches =>
    writeParameterData write
      (write (patchU32 data patch (BitVec.ofNat 32 data.length)) parameter) parameters patches
  | _, _ => data

/-- A static sampler. -/
def writeSampler (data : List Byte) (sampler : StaticSampler) : List Byte :=
  data ++ writeU32 sampler.filter ++ writeU32 sampler.addressU ++ writeU32 sampler.addressV ++
    writeU32 sampler.addressW ++ writeU32 sampler.mipLODBias ++ writeU32 sampler.maxAnisotropy ++
    writeU32 sampler.comparisonFunc ++ writeU32 sampler.borderColor ++ writeU32 sampler.minLOD ++
    writeU32 sampler.maxLOD ++ writeU32 sampler.shaderRegister ++
    writeU32 sampler.registerSpace ++ writeU32 sampler.shaderVisibility

/-- The header of the part; the offset of the samplers is patched at byte 16. -/
def writeRts0Header (version : RootSignatureVersion) (parameterCount samplerCount : Nat)
    (flags : Word) : List Byte :=
  writeU32 (versionValue version) ++ writeU32 (BitVec.ofNat 32 parameterCount) ++
    writeU32 (if parameterCount = 0 then 0 else 24) ++ writeU32 (BitVec.ofNat 32 samplerCount) ++
    writeU32 0 ++ writeU32 flags

/-- The parameters of the part behind its header. -/
def writeParameters (write : List Byte → RootParameter Range Descriptor → List Byte)
    (data : List Byte) (parameters : List (RootParameter Range Descriptor)) : List Byte :=
  let (data, patches) := writeParameterHeaders data parameters
  writeParameterData write data parameters patches

/-- The part: header, parameters and samplers. -/
def serializeRts0 (storage : RootSignatureStorage) (version : RootSignatureVersion) : List Byte :=
  let data :=
    if version = .v1_0 then
      writeParameters writeParameter0
        (writeRts0Header version storage.parameters10.length storage.staticSamplers.length
          storage.flags) storage.parameters10
    else
      writeParameters writeParameter1
        (writeRts0Header version storage.parameters11.length storage.staticSamplers.length
          storage.flags) storage.parameters11
  if storage.staticSamplers = [] then data
  else
    storage.staticSamplers.foldl writeSampler
      (patchU32 data 16 (BitVec.ofNat 32 data.length))

/-- `BuildDxbcContainer`: a container with one part. -/
def buildDxbcContainer (rts0 : List Byte) : List Byte :=
  writeU32 dxbcFourCC ++ writeU32 0 ++ writeU32 0 ++ writeU32 0 ++ writeU32 0 ++ writeU16 1 ++
    writeU16 0 ++ writeU32 (BitVec.ofNat 32 (36 + (8 + rts0.length))) ++ writeU32 1 ++
    writeU32 36 ++ writeU32 rts0FourCC ++ writeU32 (BitVec.ofNat 32 rts0.length) ++ rts0

/-- The blob of a root signature. -/
def serializeRootSignature (storage : RootSignatureStorage) (version : RootSignatureVersion) :
    List Byte :=
  buildDxbcContainer (serializeRts0 storage version)

/-! ## Reading -/

/-- A part of a container. -/
structure BlobPart where
  fourcc : Word
  data : List Byte

/-- One round of the loop over the parts. -/
def parsePart (data : List Byte) (containerSize partIndexTableEnd i : Nat) : Option BlobPart := do
  let partOffset := (readU32 data (32 + i * 4)).toNat
  if partOffset < partIndexTableEnd ∨ partOffset > containerSize then none
  let partHeaderEnd ← checkedEnd partOffset 8 containerSize
  let partFourcc := readU32 data partOffset
  let partSize := (readU32 data (partOffset + 4)).toNat
  let _ ← checkedEnd partHeaderEnd partSize containerSize
  return ⟨partFourcc, (data.drop partHeaderEnd).take partSize⟩

/-- `Parser::parseContainer`, with `none` for an error status. -/
def parseContainer (data : List Byte) : Option (List BlobPart) := do
  if data.length < 32 then none
  if readU32 data 0 ≠ dxbcFourCC then none
  let containerSize := (readU32 data 24).toNat
  let partCount := (readU32 data 28).toNat
  if containerSize < 32 ∨ containerSize > data.length then none
  let partIndexTableEnd ← checkedEnd 32 (partCount * 4) containerSize
  (List.range partCount).mapM (parsePart data containerSize partIndexTableEnd)

/-- The part of a container, or the blob itself where it is none. -/
def extractRts0Part (blob : List Byte) : Option (List Byte) :=
  if blob.length < 4 then none
  else if readU32 blob 0 ≠ dxbcFourCC then some blob
  else do
    let parts ← parseContainer blob
    let part ← parts.find? fun part => decide (part.fourcc = rts0FourCC)
    return part.data

/-- One range; the flags and the last word are where `versionValue` 2 has them, or without flags. -/
def readRange (rts0 : List Byte) (versionValue : Word) (offset : Nat) : DescriptorRange1 where
  rangeType := readU32 rts0 offset
  numDescriptors := readU32 rts0 (offset + 4)
  baseShaderRegister := readU32 rts0 (offset + 8)
  registerSpace := readU32 rts0 (offset + 12)
  flags := if versionValue = 2 then readU32 rts0 (offset + 16) else 0
  offsetInDescriptorsFromTableStart :=
    readU32 rts0 (offset + if versionValue = 2 then 20 else 16)

/-- Bytes of a range. -/
def rangeSize (versionValue : Word) : Nat :=
  if versionValue = 2 then 24 else 20

/-- Bytes of a root descriptor. -/
def descriptorSize (versionValue : Word) : Nat :=
  if versionValue = 2 then 12 else 8

/-- A root descriptor. Only the second version has flags. -/
def readDescriptor (rts0 : List Byte) (versionValue : Word) (offset : Nat) : RootDescriptor1 where
  shaderRegister := readU32 rts0 offset
  registerSpace := readU32 rts0 (offset + 4)
  flags := if versionValue = 2 then readU32 rts0 (offset + 8) else 0

/-- The descriptor that a parameter type stands for. -/
def descriptorTypeFromValue (type : Word) : Option RootDescriptorType :=
  if type = 2 then some .cbv else if type = 3 then some .srv else if type = 4 then some .uav
  else none

/-- The data of a parameter. -/
def readParameterData (rts0 : List Byte) (versionValue type : Word) (dataOffset : Nat) :
    Option (RootParameterData DescriptorRange1 RootDescriptor1) :=
  if type = 0 then do
    let _ ← checkedEnd dataOffset 8 rts0.length
    let rangeCount := (readU32 rts0 dataOffset).toNat
    let rangesOffset := (readU32 rts0 (dataOffset + 4)).toNat
    let _ ← checkedEnd rangesOffset (rangeCount * rangeSize versionValue) rts0.length
    return .descriptorTable <| (List.range rangeCount).map fun j =>
      readRange rts0 versionValue (rangesOffset + j * rangeSize versionValue)
  else if type = 1 then do
    let _ ← checkedEnd dataOffset 12 rts0.length
    return .constants32Bit
      ⟨readU32 rts0 dataOffset, readU32 rts0 (dataOffset + 4), readU32 rts0 (dataOffset + 8)⟩
  else do
    let descriptorType ← descriptorTypeFromValue type
    let _ ← checkedEnd dataOffset (descriptorSize versionValue) rts0.length
    return .descriptor descriptorType (readDescriptor rts0 versionValue dataOffset)

/-- The parameter whose header is at the offset. -/
def readParameter (rts0 : List Byte) (versionValue : Word) (headerOffset : Nat) :
    Option RootParameter1 := do
  let type := readU32 rts0 headerOffset
  let shaderVisibility := readU32 rts0 (headerOffset + 4)
  let dataOffset := (readU32 rts0 (headerOffset + 8)).toNat
  let data ← readParameterData rts0 versionValue type dataOffset
  return ⟨shaderVisibility, data⟩

/-- A static sampler. -/
def readSampler (rts0 : List Byte) (offset : Nat) : StaticSampler where
  filter := readU32 rts0 offset
  addressU := readU32 rts0 (offset + 4)
  addressV := readU32 rts0 (offset + 8)
  addressW := readU32 rts0 (offset + 12)
  mipLODBias := readU32 rts0 (offset + 16)
  maxAnisotropy := readU32 rts0 (offset + 20)
  comparisonFunc := readU32 rts0 (offset + 24)
  borderColor := readU32 rts0 (offset + 28)
  minLOD := readU32 rts0 (offset + 32)
  maxLOD := readU32 rts0 (offset + 36)
  shaderRegister := readU32 rts0 (offset + 40)
  registerSpace := readU32 rts0 (offset + 44)
  shaderVisibility := readU32 rts0 (offset + 48)

/-- The storage of the parameters that were read; those of version 1.0 have no flags. -/
def storageOf (version : RootSignatureVersion) (flags : Word) (parameters : List RootParameter1)
    (staticSamplers : List StaticSampler) : RootSignatureStorage :=
  cloneFromDesc1 version flags parameters staticSamplers

/-- An array is empty or inside the part. -/
def checkArray (count offset size limit : Nat) : Option Unit :=
  if count = 0 then some () else (checkedEnd offset (count * size) limit).map fun _ => ()

/-- `ParseRts0`. -/
def parseRts0 (rts0 : List Byte) : Option RootSignatureStorage := do
  if rts0.length < 24 then none
  let versionValue := readU32 rts0 0
  if versionValue ≠ 1 ∧ versionValue ≠ 2 ∧ versionValue ≠ 3 then none
  let parameterCount := (readU32 rts0 4).toNat
  let parameterOffset := (readU32 rts0 8).toNat
  let samplerCount := (readU32 rts0 12).toNat
  let samplerOffset := (readU32 rts0 16).toNat
  let flags := readU32 rts0 20
  checkArray parameterCount parameterOffset 12 rts0.length
  checkArray samplerCount samplerOffset 52 rts0.length
  let parameters ← (List.range parameterCount).mapM fun i =>
    readParameter rts0 versionValue (parameterOffset + i * 12)
  let staticSamplers := (List.range samplerCount).map fun i =>
    readSampler rts0 (samplerOffset + i * 52)
  return storageOf (versionFromValue versionValue) flags parameters staticSamplers

/-- `ParseRootSignatureBlob`. -/
def parseRootSignatureBlob (blob : List Byte) : Option RootSignatureStorage := do
  parseRts0 (← extractRts0Part blob)

/-! ## The words of a part -/

/-- The words of a range; the flags are there for the versions after 1.0. -/
def rangeWords (flagged : Bool) (range : DescriptorRange1) : List Word :=
  [range.rangeType, range.numDescriptors, range.baseShaderRegister, range.registerSpace] ++
    (if flagged then [range.flags] else []) ++ [range.offsetInDescriptorsFromTableStart]

/-- A root descriptor as words. -/
def descriptorWords (flagged : Bool) (descriptor : RootDescriptor1) : List Word :=
  [descriptor.shaderRegister, descriptor.registerSpace] ++
    if flagged then [descriptor.flags] else []

/-- The words of the data of a parameter, at the offset `base`. -/
def parameterWords (flagged : Bool) (base : Nat) (parameter : RootParameter1) : List Word :=
  match parameter.data with
  | .descriptorTable ranges =>
    BitVec.ofNat 32 ranges.length :: BitVec.ofNat 32 (base + 8) ::
      ranges.flatMap (rangeWords flagged)
  | .constants32Bit constants =>
    [constants.shaderRegister, constants.registerSpace, constants.num32BitValues]
  | .descriptor _ descriptor => descriptorWords flagged descriptor
  | .other _ => []

/-- The headers of parameters whose data starts at `base`. -/
def headerWords (flagged : Bool) : Nat → List RootParameter1 → List Word
  | _, [] => []
  | base, parameter :: parameters =>
    parameterType parameter.data :: parameter.shaderVisibility :: BitVec.ofNat 32 base ::
      headerWords flagged (base + 4 * (parameterWords flagged base parameter).length) parameters

/-- The data of parameters. -/
def dataWords (flagged : Bool) : Nat → List RootParameter1 → List Word
  | _, [] => []
  | base, parameter :: parameters =>
    parameterWords flagged base parameter ++
      dataWords flagged (base + 4 * (parameterWords flagged base parameter).length) parameters

/-- A static sampler as words. -/
def samplerWords (sampler : StaticSampler) : List Word :=
  [sampler.filter, sampler.addressU, sampler.addressV, sampler.addressW, sampler.mipLODBias,
    sampler.maxAnisotropy, sampler.comparisonFunc, sampler.borderColor, sampler.minLOD,
    sampler.maxLOD, sampler.shaderRegister, sampler.registerSpace, sampler.shaderVisibility]

/-- The headers and the data of the parameters of a part. -/
def bodyWords (flagged : Bool) (parameters : List RootParameter1) : List Word :=
  headerWords flagged (24 + 12 * parameters.length) parameters ++
    dataWords flagged (24 + 12 * parameters.length) parameters

/-- The header of a part. -/
def rts0HeaderWords (version : RootSignatureVersion) (parameterCount samplerCount : Nat)
    (samplerOffset flags : Word) : List Word :=
  [versionValue version, BitVec.ofNat 32 parameterCount,
    if parameterCount = 0 then 0 else 24, BitVec.ofNat 32 samplerCount, samplerOffset, flags]

/-- Whether ranges and descriptors of the version have flags. -/
def flaggedFor (version : RootSignatureVersion) : Bool :=
  decide (version ≠ .v1_0)

/-- The part as words. -/
def rts0Words (version : RootSignatureVersion) (flags : Word) (parameters : List RootParameter1)
    (samplers : List StaticSampler) : List Word :=
  rts0HeaderWords version parameters.length samplers.length
      (if samplers = [] then 0
        else BitVec.ofNat 32 (4 * (6 + (bodyWords (flaggedFor version) parameters).length)))
      flags ++
    bodyWords (flaggedFor version) parameters ++ samplers.flatMap samplerWords

variable {data : List Byte} {flagged : Bool}

/-- Writers that append words, one after the other. -/
theorem foldl_append_encodeWords {α : Type} {write : List Byte → α → List Byte}
    {words : α → List Word} (h : ∀ data x, write data x = data ++ encodeWords (words x))
    (xs : List α) (data : List Byte) :
    xs.foldl write data = data ++ encodeWords (xs.flatMap words) := by
  induction xs generalizing data with
  | nil => exact (List.append_nil data).symm
  | cons x xs ih =>
    rw [List.foldl_cons, ih, h, List.flatMap_cons, encodeWords_append, List.append_assoc]

theorem writeRange0_eq (data : List Byte) (range : DescriptorRange1) :
    writeRange0 data (DescriptorRange1.toRange0 range) =
      data ++ encodeWords (rangeWords false range) := by
  simp [writeRange0, DescriptorRange1.toRange0, rangeWords, encodeWords]

theorem writeRange1_eq (data : List Byte) (range : DescriptorRange1) :
    writeRange1 data range = data ++ encodeWords (rangeWords true range) := by
  simp [writeRange1, rangeWords, encodeWords]

theorem writeTableHeader_eq (data : List Byte) (count : Nat) :
    writeTableHeader data count = data ++ encodeWords
      [BitVec.ofNat 32 count, BitVec.ofNat 32 (data.length + 8)] := by
  simp [writeTableHeader, encodeWords, length_writeU32, Nat.add_assoc]

theorem writeParameter0_eq (data : List Byte) (parameter : RootParameter1) :
    writeParameter0 data (toParameter0 parameter) =
      data ++ encodeWords (parameterWords false data.length parameter) := by
  unfold writeParameter0 toParameter0 mapParameter parameterWords
  cases parameter.data with
  | descriptorTable ranges =>
    dsimp only
    rw [List.foldl_map, foldl_append_encodeWords writeRange0_eq, writeTableHeader_eq,
      List.length_map, List.append_assoc, ← encodeWords_append]
    rfl
  | constants32Bit constants => simp [writeConstants, encodeWords]
  | descriptor _ descriptor => simp [descriptorWords, encodeWords]
  | other _ => exact (List.append_nil data).symm

theorem writeParameter1_eq (data : List Byte) (parameter : RootParameter1) :
    writeParameter1 data parameter =
      data ++ encodeWords (parameterWords true data.length parameter) := by
  unfold writeParameter1 parameterWords
  cases parameter.data with
  | descriptorTable ranges =>
    dsimp only
    rw [foldl_append_encodeWords writeRange1_eq, writeTableHeader_eq, List.append_assoc,
      ← encodeWords_append]
    rfl
  | constants32Bit constants => simp [writeConstants, encodeWords]
  | descriptor _ descriptor => simp [descriptorWords, encodeWords]
  | other _ => exact (List.append_nil data).symm

theorem writeSampler_eq (data : List Byte) (sampler : StaticSampler) :
    writeSampler data sampler = data ++ encodeWords (samplerWords sampler) := by
  simp [writeSampler, samplerWords, encodeWords]

/-! ## What the writer writes -/

/-- The headers before their offsets are patched. -/
def zeroHeaders {P : Type} (type visibility : P → Word) : List P → List Word
  | [] => []
  | parameter :: parameters =>
    type parameter :: visibility parameter :: 0 :: zeroHeaders type visibility parameters

theorem length_zeroHeaders {P : Type} (type visibility : P → Word) (parameters : List P) :
    (zeroHeaders type visibility parameters).length = 3 * parameters.length := by
  induction parameters with
  | nil => rfl
  | cons _ parameters ih =>
    show (zeroHeaders type visibility parameters).length + 3 = 3 * (parameters.length + 1)
    omega

/-- The positions of the offsets, behind `k` words. -/
def patchesFrom (k : Nat) : Nat → List Nat
  | 0 => []
  | n + 1 => 4 * (k + 2) :: patchesFrom (k + 3) n

/-- How a parameter is written, from the parameter with the records of version 1.1. -/
structure Writes (write : List Byte → RootParameter Range Descriptor → List Byte)
    (convert : RootParameter1 → RootParameter Range Descriptor) (flagged : Bool) : Prop where
  type : ∀ parameter, parameterType (convert parameter).data = parameterType parameter.data
  visibility : ∀ parameter, (convert parameter).shaderVisibility = parameter.shaderVisibility
  data : ∀ data parameter, write data (convert parameter) =
    data ++ encodeWords (parameterWords flagged data.length parameter)

variable {write : List Byte → RootParameter Range Descriptor → List Byte}
  {convert : RootParameter1 → RootParameter Range Descriptor}

theorem writes0 : Writes writeParameter0 toParameter0 false where
  type parameter := by
    unfold toParameter0 mapParameter
    cases parameter.data <;> rfl
  visibility _ := rfl
  data := writeParameter0_eq

theorem writes1 : Writes writeParameter1 id true where
  type _ := rfl
  visibility _ := rfl
  data := writeParameter1_eq

theorem writeParameterHeader_eq (front : List Word) (parameter : RootParameter Range Descriptor) :
    writeParameterHeader (encodeWords front) parameter =
      (encodeWords (front ++ [parameterType parameter.data, parameter.shaderVisibility, 0]),
        4 * (front.length + 2)) := by
  unfold writeParameterHeader
  dsimp only
  rw [List.length_append, List.length_append, length_writeU32, length_writeU32,
    length_encodeWords, encodeWords_append]
  refine Prod.ext ?_ ?_
  · simp [encodeWords]
  · dsimp only
    omega

/-- The headers are three words each, and their bodies follow at the offsets that they give. -/
theorem writeParameterHeaders_eq (h : Writes write convert flagged) (front : List Word)
    (parameters : List RootParameter1) :
    writeParameterHeaders (encodeWords front) (parameters.map convert) =
      (encodeWords (front ++ zeroHeaders (fun p => parameterType p.data)
          (fun p => p.shaderVisibility) parameters),
        patchesFrom front.length parameters.length) := by
  induction parameters generalizing front with
  | nil => simp [writeParameterHeaders, zeroHeaders, patchesFrom]
  | cons parameter parameters ih =>
    rw [List.map_cons]
    unfold writeParameterHeaders
    rw [writeParameterHeader_eq, h.type, h.visibility]
    dsimp only
    rw [ih]
    simp [zeroHeaders, patchesFrom]

/-- The offsets are patched one after the other, while the data grows behind the headers. -/
theorem writeParameterData_eq (h : Writes write convert flagged) (front back : List Word)
    (parameters : List RootParameter1) :
    let base := 4 * (front.length + 3 * parameters.length + back.length)
    writeParameterData write
        (encodeWords (front ++ (zeroHeaders (fun p => parameterType p.data)
          (fun p => p.shaderVisibility) parameters ++ back)))
        (parameters.map convert) (patchesFrom front.length parameters.length) =
      encodeWords (front ++ (headerWords flagged base parameters ++ back ++
        dataWords flagged base parameters)) := by
  induction parameters generalizing front back with
  | nil => simp [writeParameterData, zeroHeaders, headerWords, dataWords]
  | cons parameter parameters ih =>
    dsimp only
    rw [List.length_cons]
    generalize hbase : 4 * (front.length + 3 * (parameters.length + 1) + back.length) = base
    have hlength : (encodeWords (front ++ (zeroHeaders (fun p => parameterType p.data)
        (fun p => p.shaderVisibility) (parameter :: parameters) ++ back))).length = base := by
      rw [length_encodeWords, List.length_append, List.length_append, length_zeroHeaders,
        List.length_cons, ← Nat.add_assoc, hbase]
    have hpatch : patchU32 (encodeWords (front ++ (zeroHeaders (fun p => parameterType p.data)
        (fun p => p.shaderVisibility) (parameter :: parameters) ++ back)))
          (4 * (front.length + 2)) (BitVec.ofNat 32 base) =
        encodeWords ((front ++ [parameterType parameter.data, parameter.shaderVisibility,
          BitVec.ofNat 32 base]) ++ (zeroHeaders (fun p => parameterType p.data)
            (fun p => p.shaderVisibility) parameters ++ back)) := by
      have h := patchU32_encodeWords
        (front ++ [parameterType parameter.data, parameter.shaderVisibility]) 0
        (BitVec.ofNat 32 base) (zeroHeaders (fun p => parameterType p.data)
          (fun p => p.shaderVisibility) parameters ++ back)
      simpa [zeroHeaders] using h
    have hpatched : (encodeWords ((front ++ [parameterType parameter.data,
        parameter.shaderVisibility, BitVec.ofNat 32 base]) ++
          (zeroHeaders (fun p => parameterType p.data) (fun p => p.shaderVisibility) parameters ++
            back))).length = base := by
      rw [length_encodeWords, List.length_append, List.length_append, List.length_append,
        length_zeroHeaders, ← hbase]
      simp only [List.length_cons, List.length_nil]
      omega
    have hih := ih (front ++ [parameterType parameter.data, parameter.shaderVisibility,
      BitVec.ofNat 32 base]) (back ++ parameterWords flagged base parameter)
    have hnext : 4 * ((front ++ [parameterType parameter.data, parameter.shaderVisibility,
        BitVec.ofNat 32 base]).length + 3 * parameters.length +
          (back ++ parameterWords flagged base parameter).length) =
        base + 4 * (parameterWords flagged base parameter).length := by
      rw [List.length_append, List.length_append, ← hbase]
      simp only [List.length_cons, List.length_nil]
      omega
    rw [hnext] at hih
    rw [List.map_cons, patchesFrom, writeParameterData, hlength, h.data, hpatch, hpatched,
      ← encodeWords_append]
    simpa [headerWords, dataWords] using hih

/-- The parameters behind the header, as words. -/
theorem writeParameters_eq (h : Writes write convert flagged) {header : List Word}
    (hheader : header.length = 6) (parameters : List RootParameter1) :
    writeParameters write (encodeWords header) (parameters.map convert) =
      encodeWords (header ++ bodyWords flagged parameters) := by
  have hdata := writeParameterData_eq h header [] parameters
  have hbase : 4 * (header.length + 3 * parameters.length + ([] : List Word).length) =
      24 + 12 * parameters.length := by
    rw [hheader, List.length_nil]
    omega
  rw [hbase] at hdata
  unfold writeParameters bodyWords
  rw [writeParameterHeaders_eq h]
  simpa using hdata

theorem writeRts0Header_eq (version : RootSignatureVersion) (parameterCount samplerCount : Nat)
    (flags : Word) : writeRts0Header version parameterCount samplerCount flags =
      encodeWords (rts0HeaderWords version parameterCount samplerCount 0 flags) := by
  simp [writeRts0Header, rts0HeaderWords, encodeWords]

/-- The parameters of the two kinds are the same, but for the flags. -/
def Consistent (storage : RootSignatureStorage) : Prop :=
  storage.parameters10 = storage.parameters11.map toParameter0

variable {storage : RootSignatureStorage}

/-- The whole part as words. -/
theorem serializeRts0_eq (h : Consistent storage) (version : RootSignatureVersion) :
    serializeRts0 storage version = encodeWords (rts0Words version storage.flags
      storage.parameters11 storage.staticSamplers) := by
  have hlength : storage.parameters10.length = storage.parameters11.length := by
    rw [h, List.length_map]
  have hdata : (if version = .v1_0 then
      writeParameters writeParameter0
        (writeRts0Header version storage.parameters10.length storage.staticSamplers.length
          storage.flags) storage.parameters10
    else
      writeParameters writeParameter1
        (writeRts0Header version storage.parameters11.length storage.staticSamplers.length
          storage.flags) storage.parameters11) =
      encodeWords (rts0HeaderWords version storage.parameters11.length
        storage.staticSamplers.length 0 storage.flags ++
          bodyWords (flaggedFor version) storage.parameters11) := by
    unfold flaggedFor
    rw [hlength, writeRts0Header_eq]
    split
    · next hversion =>
      rw [h, writeParameters_eq writes0 rfl, hversion]
      rfl
    · next hversion =>
      have hheader : (rts0HeaderWords version storage.parameters11.length
        storage.staticSamplers.length 0 storage.flags).length = 6 := rfl
      have hone := writeParameters_eq writes1 hheader storage.parameters11
      rw [List.map_id] at hone
      rw [hone, decide_eq_true hversion]
  unfold serializeRts0 rts0Words
  dsimp only
  rw [hdata]
  split
  · next hempty => rw [hempty, List.flatMap_nil, List.append_nil]
  · have hpatch := patchU32_encodeWords
      [versionValue version, BitVec.ofNat 32 storage.parameters11.length,
        if storage.parameters11.length = 0 then 0 else 24,
        BitVec.ofNat 32 storage.staticSamplers.length] 0
      (BitVec.ofNat 32 (4 * (6 + (bodyWords (flaggedFor version) storage.parameters11).length)))
      (storage.flags :: bodyWords (flaggedFor version) storage.parameters11)
    rw [foldl_append_encodeWords writeSampler_eq, length_encodeWords, List.length_append]
    exact (congrArg (· ++ encodeWords (storage.staticSamplers.flatMap samplerWords)) hpatch).trans
      (encodeWords_append _ _).symm

/-! ## Reading words -/

/-- The words `xs` are at word `k` of the list. -/
def WordsAt (words : List Word) (k : Nat) (xs : List Word) : Prop :=
  ∃ front back, words = front ++ (xs ++ back) ∧ front.length = k

variable {words xs ys : List Word} {k : Nat}

theorem WordsAt.head {x : Word} (h : WordsAt words k (x :: xs)) :
    readU32 (encodeWords words) (4 * k) = x := by
  obtain ⟨front, back, rfl, rfl⟩ := h
  exact readU32_encodeWords_append front x (xs ++ back)

/-- The second half of what is found. -/
theorem WordsAt.right (h : WordsAt words k (xs ++ ys)) : WordsAt words (k + xs.length) ys := by
  obtain ⟨front, back, rfl, rfl⟩ := h
  exact ⟨front ++ xs, back, by rw [List.append_assoc, List.append_assoc], List.length_append⟩

theorem WordsAt.left (h : WordsAt words k (xs ++ ys)) : WordsAt words k xs := by
  obtain ⟨front, back, rfl, rfl⟩ := h
  exact ⟨front, ys ++ back, by rw [List.append_assoc], rfl⟩

theorem WordsAt.tail {x : Word} (h : WordsAt words k (x :: xs)) : WordsAt words (k + 1) xs := by
  obtain ⟨front, back, rfl, rfl⟩ := h
  exact ⟨front ++ [x], back, by rw [List.append_assoc]; rfl, List.length_append⟩

/-- What is found fits. -/
theorem WordsAt.length_le (h : WordsAt words k xs) : k + xs.length ≤ words.length := by
  obtain ⟨front, back, rfl, rfl⟩ := h
  rw [List.length_append, List.length_append]
  omega

/-- A word among `xs`. -/
theorem WordsAt.get (h : WordsAt words k xs) {i : Nat} (hi : i < xs.length) :
    readU32 (encodeWords words) (4 * (k + i)) = xs[i]?.getD 0 := by
  obtain ⟨front, back, rfl, rfl⟩ := h
  rw [readU32_encodeWords, List.getElem?_append_right (Nat.le_add_right _ _),
    Nat.add_sub_cancel_left, List.getElem?_append_left hi]

/-- A range among words, as the reader takes it for a version value. -/
def rangeOfWords (versionValue : Word) (words : List Word) (k : Nat) : DescriptorRange1 where
  rangeType := words[k]?.getD 0
  numDescriptors := words[k + 1]?.getD 0
  baseShaderRegister := words[k + 2]?.getD 0
  registerSpace := words[k + 3]?.getD 0
  flags := if versionValue = 2 then words[k + 4]?.getD 0 else 0
  offsetInDescriptorsFromTableStart :=
    words[k + if versionValue = 2 then 5 else 4]?.getD 0

/-- The words of a range for a version value. -/
def rangeLength (versionValue : Word) : Nat :=
  if versionValue = 2 then 6 else 5

theorem rangeSize_eq (versionValue : Word) :
    rangeSize versionValue = 4 * rangeLength versionValue := by
  unfold rangeSize rangeLength
  split <;> rfl

/-- A range is read back from its words. -/
theorem WordsAt.range_eq (h : WordsAt words k xs) (versionValue : Word) {i : Nat}
    (hi : i + rangeLength versionValue ≤ xs.length) :
    readRange (encodeWords words) versionValue (4 * (k + i)) =
      rangeOfWords versionValue xs i := by
  have hget : ∀ j, j < rangeLength versionValue →
      readU32 (encodeWords words) (4 * (k + i) + 4 * j) = xs[i + j]?.getD 0 := fun j hj => by
    rw [← Nat.mul_add, Nat.add_assoc]
    exact h.get (by omega)
  have hzero : readU32 (encodeWords words) (4 * (k + i)) = xs[i]?.getD 0 :=
    hget 0 (by unfold rangeLength; split <;> omega)
  unfold readRange rangeOfWords
  unfold rangeLength at hget
  split
  · next htwo =>
    rw [if_pos htwo] at hget
    rw [← hzero, ← hget 1 (by omega), ← hget 2 (by omega), ← hget 3 (by omega),
      ← hget 4 (by omega), ← hget 5 (by omega)]
  · next htwo =>
    rw [if_neg htwo] at hget
    rw [← hzero, ← hget 1 (by omega), ← hget 2 (by omega), ← hget 3 (by omega),
      ← hget 4 (by omega)]

/-! ## What the reader makes of a written part -/

/-- The ranges that the reader finds for a table. -/
def readBackRanges (versionValue : Word) (flagged : Bool) (ranges : List DescriptorRange1) :
    List DescriptorRange1 :=
  (List.range ranges.length).map fun j =>
    rangeOfWords versionValue (ranges.flatMap (rangeWords flagged)) (j * rangeLength versionValue)

/-- What is read of a descriptor that was written. -/
def readBackDescriptor (versionValue : Word) (descriptor : RootDescriptor1) : RootDescriptor1 :=
  { descriptor with flags := if versionValue = 2 then descriptor.flags else 0 }

/-- What is read of a parameter that was written. -/
def readBackData (versionValue : Word) (flagged : Bool) :
    RootParameterData DescriptorRange1 RootDescriptor1 →
      RootParameterData DescriptorRange1 RootDescriptor1
  | .descriptorTable ranges => .descriptorTable (readBackRanges versionValue flagged ranges)
  | .constants32Bit constants => .constants32Bit constants
  | .descriptor type descriptor => .descriptor type (readBackDescriptor versionValue descriptor)
  | .other type => .other type

/-- The parameter that the reader finds for a written one. -/
def readBack (versionValue : Word) (flagged : Bool) (parameter : RootParameter1) : RootParameter1 :=
  { parameter with data := readBackData versionValue flagged parameter.data }

/-- The type of a parameter is one of the five. -/
def Known (data : RootParameterData Range Descriptor) : Prop :=
  ∀ type, data ≠ .other type

variable {value : Word} {parameter : RootParameter1}

theorem length_rangeWords (flagged : Bool) (range : DescriptorRange1) :
    (rangeWords flagged range).length = if flagged then 6 else 5 := by
  cases flagged <;> rfl

theorem length_flatMap_rangeWords (flagged : Bool) (ranges : List DescriptorRange1) :
    (ranges.flatMap (rangeWords flagged)).length = ranges.length * if flagged then 6 else 5 := by
  induction ranges with
  | nil => simp
  | cons range ranges ih =>
    rw [List.flatMap_cons, List.length_append, ih, length_rangeWords, List.length_cons,
      Nat.succ_mul, Nat.add_comm]

/-- A reader of a version takes no more words than the writer of that version writes. -/
theorem rangeLength_le (hflags : value = 2 → flagged = true) :
    rangeLength value ≤ if flagged then 6 else 5 := by
  unfold rangeLength
  split
  · next htwo => rw [hflags htwo]; decide
  · split <;> decide

theorem toNat_ofNat_of_lt {n : Nat} (h : n < 2 ^ 32) : (BitVec.ofNat 32 n).toNat = n := by
  rw [BitVec.toNat_ofNat, Nat.mod_eq_of_lt h]

/-- A table is read from its words, one range after the other. -/
theorem WordsAt.table_eq {ranges : List DescriptorRange1} (hflags : value = 2 → flagged = true)
    (h : WordsAt words k (BitVec.ofNat 32 ranges.length :: BitVec.ofNat 32 (4 * k + 8) ::
      ranges.flatMap (rangeWords flagged))) (hsize : 4 * words.length < 2 ^ 32) :
    readParameterData (encodeWords words) value 0 (4 * k) =
      some (.descriptorTable (readBackRanges value flagged ranges)) := by
  have hcount := h.head
  have hoffset := h.tail.head
  have hranges := h.tail.tail
  have hle := hranges.length_le
  rw [length_flatMap_rangeWords] at hle
  have hlength := rangeLength_le hflags
  have hmul : ranges.length * rangeLength value ≤ ranges.length * if flagged then 6 else 5 :=
    Nat.mul_le_mul_left _ hlength
  have hmul' : ranges.length ≤ ranges.length * if flagged then 6 else 5 :=
    Nat.le_mul_of_pos_right _ (by cases flagged <;> decide)
  have hread : ∀ j ∈ List.range ranges.length,
      readRange (encodeWords words) value (4 * k + 8 + j * rangeSize value) =
        rangeOfWords value (ranges.flatMap (rangeWords flagged))
          (j * rangeLength value) := fun j hj => by
    have hlt := List.mem_range.mp hj
    have hsucc : j * rangeLength value + rangeLength value ≤
        ranges.length * rangeLength value := by
      rw [← Nat.succ_mul]
      exact Nat.mul_le_mul_right _ hlt
    rw [← hranges.range_eq value (by rw [length_flatMap_rangeWords]; omega), rangeSize_eq,
      Nat.mul_left_comm]
    congr 1
    omega
  have hheader : checkedEnd (4 * k) 8 (encodeWords words).length = some (4 * k + 8) :=
    checkedEnd_eq_some (by rw [length_encodeWords]; omega)
  have hend : checkedEnd (4 * k + 8) (ranges.length * rangeSize value)
      (encodeWords words).length = some (4 * k + 8 + ranges.length * rangeSize value) :=
    checkedEnd_eq_some (by
      rw [length_encodeWords, rangeSize_eq, Nat.mul_left_comm]
      omega)
  have hoffset' : readU32 (encodeWords words) (4 * k + 4) = BitVec.ofNat 32 (4 * k + 8) := hoffset
  unfold readParameterData
  simp only [if_true, hheader, hcount, hoffset', toNat_ofNat_of_lt (n := ranges.length) (by omega),
    toNat_ofNat_of_lt (n := 4 * k + 8) (by omega), hend]
  exact congrArg (fun rs => some (RootParameterData.descriptorTable rs)) (List.map_congr_left hread)

/-- A root descriptor is read back from its words. -/
theorem WordsAt.descriptor_eq {type : RootDescriptorType} {descriptor : RootDescriptor1}
    (hflags : value = 2 → flagged = true)
    (h : WordsAt words k (descriptorWords flagged descriptor)) :
    readParameterData (encodeWords words) value (RootDescriptorType.value type) (4 * k) =
      some (.descriptor type (readBackDescriptor value descriptor)) := by
  have htype : descriptorTypeFromValue (RootDescriptorType.value type) = some type := by
    cases type <;> decide
  have hne : RootDescriptorType.value type ≠ 0 ∧ RootDescriptorType.value type ≠ 1 := by
    cases type <;> decide
  have hle := h.length_le
  have hlength : descriptorSize value ≤ 4 * (descriptorWords flagged descriptor).length := by
    unfold descriptorSize descriptorWords
    by_cases htwo : value = 2
    · rw [if_pos htwo, hflags htwo]
      exact Nat.le_refl 12
    · rw [if_neg htwo, List.length_append]
      exact Nat.le_trans (Nat.le_refl 8) (Nat.mul_le_mul_left 4 (Nat.le_add_right 2 _))
  have hend : checkedEnd (4 * k) (descriptorSize value) (encodeWords words).length =
      some (4 * k + descriptorSize value) :=
    checkedEnd_eq_some (by rw [length_encodeWords]; omega)
  have hwords : WordsAt words k (descriptor.shaderRegister :: descriptor.registerSpace ::
      if flagged then [descriptor.flags] else []) := h
  have hregister : readU32 (encodeWords words) (4 * k) = descriptor.shaderRegister := hwords.head
  have hspace : readU32 (encodeWords words) (4 * k + 4) = descriptor.registerSpace :=
    hwords.tail.head
  have hread : readDescriptor (encodeWords words) value (4 * k) =
      readBackDescriptor value descriptor := by
    unfold readDescriptor readBackDescriptor
    rw [hregister, hspace]
    split
    · next htwo =>
      have hlast := hwords.tail.tail
      rw [hflags htwo, if_pos rfl] at hlast
      have hdescriptor : readU32 (encodeWords words) (4 * k + 8) = descriptor.flags := hlast.head
      rw [hdescriptor]
    · rfl
  unfold readParameterData
  simp only [hne.1, hne.2, if_false, htype, hend, hread]
  rfl

/-- Root constants are read back from their words. -/
theorem WordsAt.constants_eq {constants : RootConstants}
    (h : WordsAt words k [constants.shaderRegister, constants.registerSpace,
      constants.num32BitValues]) :
    readParameterData (encodeWords words) value 1 (4 * k) =
      some (.constants32Bit constants) := by
  have hle := h.length_le
  simp only [List.length_cons, List.length_nil] at hle
  have hend : checkedEnd (4 * k) 12 (encodeWords words).length = some (4 * k + 12) :=
    checkedEnd_eq_some (by rw [length_encodeWords]; omega)
  have hregister : readU32 (encodeWords words) (4 * k) = constants.shaderRegister := h.head
  have hspace : readU32 (encodeWords words) (4 * k + 4) = constants.registerSpace := h.tail.head
  have hcount : readU32 (encodeWords words) (4 * k + 8) = constants.num32BitValues :=
    h.tail.tail.head
  unfold readParameterData
  simp only [show ¬ (1 : Word) = 0 by decide, if_false, if_true, hend, hregister, hspace, hcount]
  rfl

/-- The data of a parameter is read from its words. -/
theorem WordsAt.data_eq (hflags : value = 2 → flagged = true) (hknown : Known parameter.data)
    (h : WordsAt words k (parameterWords flagged (4 * k) parameter))
    (hsize : 4 * words.length < 2 ^ 32) :
    readParameterData (encodeWords words) value (parameterType parameter.data) (4 * k) =
      some (readBackData value flagged parameter.data) := by
  unfold parameterWords at h
  cases hdata : parameter.data with
  | descriptorTable ranges =>
    rw [hdata] at h
    exact h.table_eq hflags hsize
  | constants32Bit constants =>
    rw [hdata] at h
    exact h.constants_eq
  | descriptor type descriptor =>
    rw [hdata] at h
    exact h.descriptor_eq hflags
  | other type => exact absurd hdata (hknown type)

/-- The parameters are read from their headers, each with the data that its offset leads to. -/
theorem readParameters_eq (hflags : value = 2 → flagged = true) {parameters : List RootParameter1}
    (hknown : ∀ parameter ∈ parameters, Known parameter.data) {header data : Nat}
    (hheader : WordsAt words header (headerWords flagged (4 * data) parameters))
    (hdata : WordsAt words data (dataWords flagged (4 * data) parameters))
    (hsize : 4 * words.length < 2 ^ 32) :
    (List.range parameters.length).mapM (fun i =>
        readParameter (encodeWords words) value (4 * header + i * 12)) =
      some (parameters.map (readBack value flagged)) := by
  induction parameters generalizing header data with
  | nil => rfl
  | cons parameter parameters ih =>
    rw [List.forall_mem_cons] at hknown
    unfold headerWords at hheader
    unfold dataWords at hdata
    have hle := hdata.length_le
    have hbase : 4 * data + 4 * (parameterWords flagged (4 * data) parameter).length =
        4 * (data + (parameterWords flagged (4 * data) parameter).length) := by
      rw [Nat.mul_add]
    have hfirst : readParameter (encodeWords words) value (4 * header) =
        some (readBack value flagged parameter) := by
      have htype := hheader.head
      have hvisibility : readU32 (encodeWords words) (4 * header + 4) =
          parameter.shaderVisibility := hheader.tail.head
      have hoffset : readU32 (encodeWords words) (4 * header + 8) = BitVec.ofNat 32 (4 * data) :=
        hheader.tail.tail.head
      unfold readParameter
      simp only [htype, hvisibility, hoffset, toNat_ofNat_of_lt (n := 4 * data) (by omega),
        hdata.left.data_eq hflags hknown.1 hsize]
      rfl
    have hheaders : WordsAt words (header + 3) (headerWords flagged
        (4 * (data + (parameterWords flagged (4 * data) parameter).length)) parameters) :=
      hbase ▸ hheader.tail.tail.tail
    have hrest := ih hknown.2 hheaders (hbase ▸ hdata.right)
    rw [List.length_cons, List.range_succ_eq_map, List.mapM_cons, List.mapM_map]
    simp only [Nat.zero_mul, Nat.add_zero, hfirst]
    have hshift : (fun i => readParameter (encodeWords words) value
        (4 * header + i * 12)) ∘ Nat.succ = fun i =>
          readParameter (encodeWords words) value (4 * (header + 3) + i * 12) := by
      funext i
      show readParameter _ _ (4 * header + (i + 1) * 12) = _
      congr 1
      omega
    rw [hshift, hrest]
    rfl

theorem length_samplerWords (sampler : StaticSampler) : (samplerWords sampler).length = 13 :=
  rfl

theorem length_flatMap_samplerWords (samplers : List StaticSampler) :
    (samplers.flatMap samplerWords).length = 13 * samplers.length := by
  induction samplers with
  | nil => rfl
  | cons sampler samplers ih =>
    rw [List.flatMap_cons, List.length_append, ih, length_samplerWords, List.length_cons]
    omega

/-- A static sampler is read back from its words. -/
theorem WordsAt.sampler_eq {sampler : StaticSampler} (h : WordsAt words k (samplerWords sampler)) :
    readSampler (encodeWords words) (4 * k) = sampler := by
  have hget : ∀ i, i < 13 → readU32 (encodeWords words) (4 * k + 4 * i) =
      (samplerWords sampler)[i]?.getD 0 := fun i hi => by
    rw [← Nat.mul_add]
    exact h.get hi
  have hzero : readU32 (encodeWords words) (4 * k) = sampler.filter := hget 0 (by decide)
  unfold readSampler
  rw [hzero, hget 1 (by decide), hget 2 (by decide), hget 3 (by decide), hget 4 (by decide),
    hget 5 (by decide), hget 6 (by decide), hget 7 (by decide), hget 8 (by decide),
    hget 9 (by decide), hget 10 (by decide), hget 11 (by decide), hget 12 (by decide)]
  rfl

/-- The static samplers are read back. -/
theorem readSamplers_eq {samplers : List StaticSampler}
    (h : WordsAt words k (samplers.flatMap samplerWords)) :
    (List.range samplers.length).map (fun i => readSampler (encodeWords words) (4 * k + i * 52)) =
      samplers := by
  induction samplers generalizing k with
  | nil => rfl
  | cons sampler samplers ih =>
    rw [List.flatMap_cons] at h
    have hrest := ih h.right
    rw [length_samplerWords] at hrest
    rw [List.length_cons, List.range_succ_eq_map, List.map_cons, List.map_map, Nat.zero_mul,
      Nat.add_zero, h.left.sampler_eq]
    refine congrArg (sampler :: ·) (Eq.trans (List.map_congr_left fun i _ => ?_) hrest)
    show readSampler _ (4 * k + (i + 1) * 52) = _
    congr 1
    omega

theorem length_headerWords (flagged : Bool) (base : Nat) (parameters : List RootParameter1) :
    (headerWords flagged base parameters).length = 3 * parameters.length := by
  induction parameters generalizing base with
  | nil => rfl
  | cons parameter parameters ih =>
    unfold headerWords
    rw [List.length_cons, List.length_cons, List.length_cons, ih, List.length_cons]
    omega

/-- A version is read back. -/
theorem versionFromValue_versionValue (version : RootSignatureVersion) :
    versionFromValue (versionValue version) = version := by
  cases version <;> rfl

theorem versionValue_supported (version : RootSignatureVersion) :
    ¬ (versionValue version ≠ 1 ∧ versionValue version ≠ 2 ∧ versionValue version ≠ 3) := by
  cases version <;> decide

/-- The flags are read only where they are written. -/
theorem flaggedFor_of_versionValue {version : RootSignatureVersion}
    (h : versionValue version = 2) : flaggedFor version = true := by
  cases version with
  | v1_0 => exact absurd h (by decide)
  | v1_1 => rfl
  | v1_2 => exact absurd h (by decide)

/-- What the reader makes of a written part. -/
theorem parseRts0_rts0Words {version : RootSignatureVersion} {flags : Word}
    {parameters : List RootParameter1} {samplers : List StaticSampler}
    (hknown : ∀ parameter ∈ parameters, Known parameter.data)
    (hsize : 4 * (rts0Words version flags parameters samplers).length < 2 ^ 32) :
    parseRts0 (encodeWords (rts0Words version flags parameters samplers)) =
      some (storageOf version flags
        (parameters.map (readBack (versionValue version) (flaggedFor version))) samplers) := by
  generalize hwords : rts0Words version flags parameters samplers = words at hsize
  generalize hoffset : (if samplers = [] then (0 : Word) else
    BitVec.ofNat 32 (4 * (6 + (bodyWords (flaggedFor version) parameters).length))) = offset
  -- where everything is
  have hall : WordsAt words 0 (rts0HeaderWords version parameters.length samplers.length offset
      flags ++
      (bodyWords (flaggedFor version) parameters ++ samplers.flatMap samplerWords)) := by
    refine ⟨[], [], ?_, rfl⟩
    rw [← hwords, List.nil_append, List.append_nil, ← List.append_assoc, ← hoffset]
    rfl
  have hheader := hall.left
  have hbody : WordsAt words 6 (bodyWords (flaggedFor version) parameters) := hall.right.left
  have hsamplers : WordsAt words (6 + (bodyWords (flaggedFor version) parameters).length)
      (samplers.flatMap samplerWords) := hall.right.right
  have hbase : 24 + 12 * parameters.length = 4 * (6 + 3 * parameters.length) := by omega
  have hheaders : WordsAt words 6
      (headerWords (flaggedFor version) (4 * (6 + 3 * parameters.length)) parameters) := by
    rw [← hbase]
    exact hbody.left
  have hdata : WordsAt words (6 + 3 * parameters.length)
      (dataWords (flaggedFor version) (4 * (6 + 3 * parameters.length)) parameters) := by
    have hright := hbody.right
    rw [length_headerWords, hbase] at hright
    exact hright
  have hlength := hheaders.length_le
  rw [length_headerWords] at hlength
  have hend := hsamplers.length_le
  rw [length_flatMap_samplerWords] at hend
  -- the words of the header
  have hversion : readU32 (encodeWords words) 0 = versionValue version := hheader.head
  have hcount : readU32 (encodeWords words) 4 = BitVec.ofNat 32 parameters.length :=
    hheader.tail.head
  have hparameters : readU32 (encodeWords words) 8 = if parameters.length = 0 then 0 else 24 :=
    hheader.tail.tail.head
  have hsamplerCount : readU32 (encodeWords words) 12 = BitVec.ofNat 32 samplers.length :=
    hheader.tail.tail.tail.head
  have hsamplerOffset : readU32 (encodeWords words) 16 = offset :=
    hheader.tail.tail.tail.tail.head
  have hflags : readU32 (encodeWords words) 20 = flags := hheader.tail.tail.tail.tail.tail.head
  have hfour : (24 : Word).toNat = 4 * 6 := by decide
  have hparameterEnd : checkArray parameters.length
      (if parameters.length = 0 then (0 : Word) else 24).toNat 12 (encodeWords words).length =
        some () := by
    unfold checkArray
    split
    · rfl
    · rw [hfour, length_encodeWords, checkedEnd_eq_some (by omega)]
      rfl
  have hsamplerOffset' : samplers.length ≠ 0 →
      offset.toNat = 4 * (6 + (bodyWords (flaggedFor version) parameters).length) := fun hne => by
    rw [← hoffset, if_neg (fun h => hne (by rw [h]; rfl)), toNat_ofNat_of_lt]
    omega
  have hreadParameters : (List.range parameters.length).mapM (fun i => readParameter
      (encodeWords words) (versionValue version)
        ((if parameters.length = 0 then (0 : Word) else 24).toNat + i * 12)) =
      some (parameters.map (readBack (versionValue version) (flaggedFor version))) := by
    by_cases hempty : parameters.length = 0
    · rw [List.length_eq_zero_iff.mp hempty]
      rfl
    · rw [if_neg hempty, hfour]
      exact readParameters_eq flaggedFor_of_versionValue hknown hheaders hdata hsize
  have hreadSamplers : (List.range samplers.length).map (fun i => readSampler (encodeWords words)
      (offset.toNat + i * 52)) = samplers := by
    by_cases hempty : samplers.length = 0
    · rw [List.length_eq_zero_iff.mp hempty]
      rfl
    · rw [hsamplerOffset' hempty]
      exact readSamplers_eq hsamplers
  have hlarge : ¬ (encodeWords words).length < 24 := by
    rw [length_encodeWords]
    omega
  have hsamplerEnd : checkArray samplers.length offset.toNat 52 (encodeWords words).length =
      some () := by
    unfold checkArray
    split
    · rfl
    · next hne =>
      rw [hsamplerOffset' hne, length_encodeWords, checkedEnd_eq_some (by omega)]
      rfl
  unfold parseRts0
  simp only [hlarge, hversion, versionValue_supported, hcount, hparameters, hsamplerCount,
    hsamplerOffset, hflags, toNat_ofNat_of_lt (n := parameters.length) (by omega),
    toNat_ofNat_of_lt (n := samplers.length) (by omega), hreadParameters, hreadSamplers,
    versionFromValue_versionValue, hparameterEnd, hsamplerEnd, if_false]
  rfl

/-! ## The container -/

/-- The container as words. -/
theorem buildDxbcContainer_eq (rts0 : List Byte) :
    buildDxbcContainer rts0 = encodeWords [dxbcFourCC, 0, 0, 0, 0, 1,
      BitVec.ofNat 32 (36 + (8 + rts0.length)), 1, 36, rts0FourCC,
      BitVec.ofNat 32 rts0.length] ++ rts0 := by
  have hversion : writeU16 1 ++ writeU16 0 = writeU32 1 := by decide
  unfold buildDxbcContainer
  simp only [encodeWords, List.flatMap_cons, List.flatMap_nil, List.append_nil, List.append_assoc]
  rw [← List.append_assoc (writeU16 1), hversion]

theorem readU32_append_left {front back : List Byte} {offset : Nat}
    (h : offset + 4 ≤ front.length) : readU32 (front ++ back) offset = readU32 front offset := by
  have hbyte : ∀ i, i < 4 → byteAt (front ++ back) (offset + i) = byteAt front (offset + i) :=
    fun i hi => by
      unfold byteAt
      rw [List.getElem?_append_left (by omega)]
  have hzero := hbyte 0 (by decide)
  rw [Nat.add_zero] at hzero
  unfold readU32
  rw [hzero, hbyte 1 (by decide), hbyte 2 (by decide), hbyte 3 (by decide)]

/-- The part comes out of its container. -/
theorem extractRts0Part_buildDxbcContainer {rts0 : List Byte}
    (hsize : (buildDxbcContainer rts0).length < 2 ^ 32) :
    extractRts0Part (buildDxbcContainer rts0) = some rts0 := by
  rw [buildDxbcContainer_eq] at hsize ⊢
  generalize hheader : ([dxbcFourCC, 0, 0, 0, 0, 1, BitVec.ofNat 32 (36 + (8 + rts0.length)), 1, 36,
    rts0FourCC, BitVec.ofNat 32 rts0.length] : List Word) = header at hsize ⊢
  have hcount : header.length = 11 := by rw [← hheader]; rfl
  have hlength : (encodeWords header ++ rts0).length = 44 + rts0.length := by
    rw [List.length_append, length_encodeWords, hcount]
  have hword : ∀ i, i < 11 → readU32 (encodeWords header ++ rts0) (4 * i) = header[i]?.getD 0 :=
    fun i hi => by
      rw [readU32_append_left (by rw [length_encodeWords]; omega), readU32_encodeWords]
  rw [hlength] at hsize
  have hmagic : readU32 (encodeWords header ++ rts0) 0 = dxbcFourCC :=
    (hword 0 (by decide)).trans (by rw [← hheader]; rfl)
  have hcontainer : readU32 (encodeWords header ++ rts0) 24 =
      BitVec.ofNat 32 (36 + (8 + rts0.length)) :=
    (hword 6 (by decide)).trans (by rw [← hheader]; rfl)
  have hparts : readU32 (encodeWords header ++ rts0) 28 = 1 :=
    (hword 7 (by decide)).trans (by rw [← hheader]; rfl)
  have hoffset : readU32 (encodeWords header ++ rts0) 32 = 36 :=
    (hword 8 (by decide)).trans (by rw [← hheader]; rfl)
  have hfourcc : readU32 (encodeWords header ++ rts0) 36 = rts0FourCC :=
    (hword 9 (by decide)).trans (by rw [← hheader]; rfl)
  have hpart : readU32 (encodeWords header ++ rts0) 40 = BitVec.ofNat 32 rts0.length :=
    (hword 10 (by decide)).trans (by rw [← hheader]; rfl)
  have hdata : ((encodeWords header ++ rts0).drop 44).take rts0.length = rts0 := by
    have hfront : (encodeWords header).length = 44 := by rw [length_encodeWords, hcount]
    rw [← hfront, List.drop_left, List.take_length]
  have hsize' := toNat_ofNat_of_lt (n := 36 + (8 + rts0.length)) (by omega)
  have hlength' := toNat_ofNat_of_lt (n := rts0.length) (by omega)
  have hthirtysix : (36 : Word).toNat = 36 := by decide
  have hone : (1 : Word).toNat = 1 := by decide
  have hparse : parsePart (encodeWords header ++ rts0) (36 + (8 + rts0.length)) 36 0 =
      some ⟨rts0FourCC, rts0⟩ := by
    unfold parsePart
    simp only [Nat.zero_mul, Nat.add_zero, hoffset, hthirtysix, hfourcc, hpart, hlength',
      checkedEnd_eq_some (show 36 + 8 ≤ 36 + (8 + rts0.length) by omega),
      show ¬ (36 < 36 ∨ 36 > 36 + (8 + rts0.length)) by omega, if_false]
    simp only [Option.bind_eq_bind, Option.bind_some, Option.pure_def,
      checkedEnd_eq_some (show 36 + 8 + rts0.length ≤ 36 + (8 + rts0.length) by omega), hdata]
  have hcontainers : parseContainer (encodeWords header ++ rts0) = some [⟨rts0FourCC, rts0⟩] := by
    unfold parseContainer
    simp only [hlength, hmagic, hcontainer, hparts, hsize', hone, ne_eq, not_true, if_false,
      show ¬ 44 + rts0.length < 32 by omega,
      show ¬ (36 + (8 + rts0.length) < 32 ∨ 36 + (8 + rts0.length) > 44 + rts0.length) by omega,
      checkedEnd_eq_some (show 32 + 1 * 4 ≤ 36 + (8 + rts0.length) by omega)]
    simp [hparse]
  unfold extractRts0Part
  rw [if_neg (by omega), if_neg (not_not.mpr hmagic), hcontainers]
  rfl

/-! ## The round trip -/

/-- The storage of a description of the version with the same content. -/
def convertTo (storage : RootSignatureStorage) (version : RootSignatureVersion) :
    RootSignatureStorage :=
  if version = .v1_0 then
    cloneFromDesc0 storage.flags storage.parameters10 storage.staticSamplers
  else cloneFromDesc1 version storage.flags storage.parameters11 storage.staticSamplers

/-- The ranges of a table whose records are read as they are written without flags: the first one
has no flags and no offset, and there is nothing in the others. -/
def FitsRanges : List DescriptorRange1 → Prop
  | [] => True
  | range :: ranges =>
    range.flags = 0 ∧ range.offsetInDescriptorsFromTableStart = 0 ∧
      ∀ other ∈ ranges, other = ⟨0, 0, 0, 0, 0, 0⟩

/-- A parameter that version 1.0 can say. -/
def Fits (parameter : RootParameter1) : Prop :=
  match parameter.data with
  | .descriptorTable ranges => FitsRanges ranges
  | .descriptor _ descriptor => descriptor.flags = 0
  | _ => True

variable {ranges : List DescriptorRange1}

/-- A range past the first words is read from the rest. -/
theorem rangeOfWords_append (value : Word) (xs ys : List Word) (k : Nat) :
    rangeOfWords value (xs ++ ys) (xs.length + k) = rangeOfWords value ys k := by
  have hget : ∀ i, (xs ++ ys)[xs.length + k + i]?.getD 0 = ys[k + i]?.getD 0 := fun i => by
    rw [Nat.add_assoc, List.getElem?_append_right (Nat.le_add_right _ _), Nat.add_sub_cancel_left]
  have hzero : (xs ++ ys)[xs.length + k]?.getD 0 = ys[k]?.getD 0 := hget 0
  unfold rangeOfWords
  simp only [hzero, hget]

/-- The ranges are read back where the records have the length that they were written with. -/
theorem rangeOfWords_flatMap {flagged : Bool} {value : Word}
    {f : DescriptorRange1 → DescriptorRange1}
    (hlength : rangeLength value = if flagged then 6 else 5)
    (hfirst : ∀ range rest, rangeOfWords value (rangeWords flagged range ++ rest) 0 = f range)
    {j : Nat} (hj : j < ranges.length) :
    rangeOfWords value (ranges.flatMap (rangeWords flagged)) (j * rangeLength value) =
      f ranges[j] := by
  induction ranges generalizing j with
  | nil => exact absurd hj (Nat.not_lt_zero j)
  | cons range ranges ih =>
    rw [List.flatMap_cons]
    cases j with
    | zero =>
      rw [Nat.zero_mul]
      exact hfirst range _
    | succ j =>
      have hnext : (j + 1) * rangeLength value =
          (rangeWords flagged range).length + j * rangeLength value := by
        rw [length_rangeWords, ← hlength, Nat.succ_mul, Nat.add_comm]
      rw [hnext, rangeOfWords_append]
      exact ih (Nat.lt_of_succ_lt_succ hj)

theorem readBackRanges_eq {flagged : Bool} {value : Word} {f : DescriptorRange1 → DescriptorRange1}
    (hlength : rangeLength value = if flagged then 6 else 5)
    (hfirst : ∀ range rest, rangeOfWords value (rangeWords flagged range ++ rest) 0 = f range) :
    readBackRanges value flagged ranges = ranges.map f := by
  refine List.ext_getElem (by simp [readBackRanges]) fun j h₁ h₂ => ?_
  rw [List.length_map] at h₂
  rw [List.getElem_map]
  simp only [readBackRanges, List.getElem_map, List.getElem_range]
  exact rangeOfWords_flatMap hlength hfirst h₂

/-- Ranges with flags are read back as they are. -/
theorem readBackRanges_v1_1 : readBackRanges 2 true ranges = ranges :=
  (readBackRanges_eq rfl fun _ _ => rfl).trans (List.map_id ranges)

/-- Ranges of version 1.0 lose their flags. -/
theorem readBackRanges_v1_0 : readBackRanges 1 false ranges =
    ranges.map fun range => DescriptorRange0.toRange1 (DescriptorRange1.toRange0 range) :=
  readBackRanges_eq rfl fun _ _ => rfl

/-- The record without anything in it. -/
def emptyRange : DescriptorRange1 :=
  ⟨0, 0, 0, 0, 0, 0⟩

/-- A word of the ranges of a table. -/
def tableWord (ranges : List DescriptorRange1) (m : Nat) : Word :=
  (ranges.flatMap (rangeWords true))[m]?.getD 0

theorem tableWord_cons_add (range : DescriptorRange1) (ranges : List DescriptorRange1) (m : Nat) :
    tableWord (range :: ranges) (m + 6) = tableWord ranges m :=
  rfl

theorem tableWord_eq_zero_iff :
    (∀ m, tableWord ranges m = 0) ↔ ∀ range ∈ ranges, range = emptyRange := by
  induction ranges with
  | nil =>
    refine iff_of_true (fun m => ?_) fun _ h => absurd h List.not_mem_nil
    unfold tableWord
    simp
  | cons range ranges ih =>
    rw [List.forall_mem_cons, ← ih]
    constructor
    · intro h
      refine ⟨?_, fun m => (tableWord_cons_add range ranges m).symm.trans (h (m + 6))⟩
      have h0 : range.rangeType = 0 := h 0
      have h1 : range.numDescriptors = 0 := h 1
      have h2 : range.baseShaderRegister = 0 := h 2
      have h3 : range.registerSpace = 0 := h 3
      have h4 : range.flags = 0 := h 4
      have h5 : range.offsetInDescriptorsFromTableStart = 0 := h 5
      cases range
      simp_all [emptyRange]
    · rintro ⟨rfl, h⟩ m
      match m with
      | 0 | 1 | 2 | 3 | 4 | 5 => rfl
      | m + 6 => exact h m

/-- The words behind the fourth one are zero. -/
theorem fitsRanges_iff : FitsRanges ranges ↔ ∀ m, 4 ≤ m → tableWord ranges m = 0 := by
  cases ranges with
  | nil =>
    refine iff_of_true trivial fun m _ => ?_
    unfold tableWord
    simp
  | cons range ranges =>
    show (range.flags = 0 ∧ range.offsetInDescriptorsFromTableStart = 0 ∧
      ∀ other ∈ ranges, other = emptyRange) ↔ _
    rw [← tableWord_eq_zero_iff]
    constructor
    · rintro ⟨hflags, hoffset, hrest⟩ m hm
      match m, hm with
      | 4, _ => exact hflags
      | 5, _ => exact hoffset
      | m + 6, _ => exact hrest m
    · intro h
      exact ⟨h 4 (by decide), h 5 (by decide), fun m => h (m + 6) (by omega)⟩

/-- The ranges with flags, read without them. The reader is at word `5 * j` where the range is at
word `6 * j`, so that every word from the fifth one on is an earlier one, or zero. -/
theorem readBackRanges_v1_2_iff : readBackRanges 3 true ranges = ranges ↔ FitsRanges ranges := by
  have hrange : ∀ j (hj : j < ranges.length), ranges[j] =
      ⟨tableWord ranges (j * 6), tableWord ranges (j * 6 + 1), tableWord ranges (j * 6 + 2),
        tableWord ranges (j * 6 + 3), tableWord ranges (j * 6 + 4),
        tableWord ranges (j * 6 + 5)⟩ := fun j hj => by
    have h : rangeOfWords 2 (ranges.flatMap (rangeWords true)) (j * rangeLength 2) =
        id ranges[j] := rangeOfWords_flatMap rfl (fun _ _ => rfl) hj
    exact h.symm
  have hread : readBackRanges 3 true ranges = ranges ↔ ∀ j (hj : j < ranges.length),
      (⟨tableWord ranges (j * 5), tableWord ranges (j * 5 + 1), tableWord ranges (j * 5 + 2),
        tableWord ranges (j * 5 + 3), 0, tableWord ranges (j * 5 + 4)⟩ : DescriptorRange1) =
          ranges[j] := by
    rw [List.ext_getElem_iff]
    simp only [readBackRanges, List.length_map, List.length_range, true_and, List.getElem_map,
      List.getElem_range]
    exact ⟨fun h j hj => h j hj hj, fun h j hj _ => h j hj⟩
  rw [hread, fitsRanges_iff]
  constructor
  · intro h m hm
    induction m using Nat.strongRecOn with
    | ind m ih =>
      obtain ⟨j, t, ht, rfl⟩ : ∃ j t, t < 6 ∧ m = j * 6 + t :=
        ⟨m / 6, m % 6, Nat.mod_lt m (by decide), (Nat.div_add_mod' m 6).symm⟩
      by_cases hj : j < ranges.length
      · have heq := (h j hj).trans (hrange j hj)
        injection heq with h0 h1 h2 h3 h4 h5
        match t, ht with
        | 0, _ => exact h0.symm.trans (ih _ (by omega) (by omega))
        | 1, _ => exact h1.symm.trans (ih _ (by omega) (by omega))
        | 2, _ => exact h2.symm.trans (ih _ (by omega) (by omega))
        | 3, _ => exact h3.symm.trans (ih _ (by omega) (by omega))
        | 4, _ => exact h4.symm
        | 5, _ => exact h5.symm.trans (ih _ (by omega) (by omega))
      · unfold tableWord
        rw [List.getElem?_eq_none (by
          rw [length_flatMap_rangeWords, if_pos rfl]
          omega)]
        rfl
  · intro h j hj
    rw [hrange j hj]
    cases j with
    | zero =>
      show (⟨tableWord ranges 0, tableWord ranges 1, tableWord ranges 2, tableWord ranges 3, 0,
        tableWord ranges 4⟩ : DescriptorRange1) = ⟨tableWord ranges 0, tableWord ranges 1,
          tableWord ranges 2, tableWord ranges 3, tableWord ranges 4, tableWord ranges 5⟩
      rw [h 4 (by decide), h 5 (by decide)]
    | succ j =>
      rw [h ((j + 1) * 5) (by omega), h ((j + 1) * 5 + 1) (by omega),
        h ((j + 1) * 5 + 2) (by omega), h ((j + 1) * 5 + 3) (by omega),
        h ((j + 1) * 5 + 4) (by omega), h ((j + 1) * 6) (by omega),
        h ((j + 1) * 6 + 1) (by omega), h ((j + 1) * 6 + 2) (by omega),
        h ((j + 1) * 6 + 3) (by omega), h ((j + 1) * 6 + 4) (by omega),
        h ((j + 1) * 6 + 5) (by omega)]

/-! ## The storages of descriptions and of blobs -/

/-- The parameters are of the known types. -/
def AllKnown (storage : RootSignatureStorage) : Prop :=
  ∀ parameter ∈ storage.parameters11, Known parameter.data

theorem toParameter0_toParameter1 (parameter : RootParameter0) :
    toParameter0 (toParameter1 parameter) = parameter := by
  obtain ⟨visibility, data⟩ := parameter
  cases data <;>
    simp [toParameter0, toParameter1, mapParameter, Function.comp_def,
      DescriptorRange0.toRange1, DescriptorRange1.toRange0]

theorem readBack_v1_0 (parameter : RootParameter1) :
    readBack 1 false parameter = toParameter1 (toParameter0 parameter) := by
  obtain ⟨visibility, data⟩ := parameter
  cases data with
  | descriptorTable ranges =>
    show RootParameter.mk visibility (.descriptorTable (readBackRanges 1 false ranges)) =
      RootParameter.mk visibility (.descriptorTable
        ((ranges.map DescriptorRange1.toRange0).map DescriptorRange0.toRange1))
    rw [readBackRanges_v1_0, List.map_map]
    rfl
  | constants32Bit constants => rfl
  | descriptor type descriptor => rfl
  | other type => rfl

theorem readBack_v1_1 (parameter : RootParameter1) : readBack 2 true parameter = parameter := by
  obtain ⟨visibility, data⟩ := parameter
  cases data with
  | descriptorTable ranges =>
    show RootParameter.mk visibility (.descriptorTable (readBackRanges 2 true ranges)) = _
    rw [readBackRanges_v1_1]
  | constants32Bit constants => rfl
  | descriptor type descriptor => rfl
  | other type => rfl

/-- What the reader makes of version 1.2 is the parameter exactly where its ranges fit. -/
theorem readBack_v1_2_iff (parameter : RootParameter1) :
    readBack 3 true parameter = parameter ↔ Fits parameter := by
  obtain ⟨visibility, data⟩ := parameter
  cases data with
  | descriptorTable ranges =>
    show RootParameter.mk visibility (.descriptorTable (readBackRanges 3 true ranges)) =
      RootParameter.mk visibility (.descriptorTable ranges) ↔ FitsRanges ranges
    rw [← readBackRanges_v1_2_iff]
    simp only [RootParameter.mk.injEq, RootParameterData.descriptorTable.injEq, true_and]
  | constants32Bit constants => exact iff_of_true rfl trivial
  | descriptor type descriptor =>
    obtain ⟨register, space, flags⟩ := descriptor
    show (⟨visibility, .descriptor type ⟨register, space, 0⟩⟩ : RootParameter1) =
      ⟨visibility, .descriptor type ⟨register, space, flags⟩⟩ ↔ flags = 0
    simp only [RootParameter.mk.injEq, RootParameterData.descriptor.injEq,
      RootDescriptor1.mk.injEq, true_and]
    exact eq_comm
  | other type => exact iff_of_true rfl trivial

/-- What the reader makes of every written blob. -/
theorem parse_serialize (hconsistent : Consistent storage) (hknown : AllKnown storage)
    (version : RootSignatureVersion)
    (hsize : (serializeRootSignature storage version).length < 2 ^ 32) :
    parseRootSignatureBlob (serializeRootSignature storage version) =
      some (storageOf version storage.flags (storage.parameters11.map
        (readBack (versionValue version) (flaggedFor version))) storage.staticSamplers) := by
  unfold serializeRootSignature at hsize ⊢
  unfold parseRootSignatureBlob
  rw [extractRts0Part_buildDxbcContainer hsize]
  rw [buildDxbcContainer_eq, List.length_append, serializeRts0_eq hconsistent,
    length_encodeWords, length_encodeWords] at hsize
  show parseRts0 (serializeRts0 storage version) = _
  rw [serializeRts0_eq hconsistent]
  exact parseRts0_rts0Words hknown (by omega)

/-- The read storage is the original one, converted, but for what version 1.2 does to the records.
-/
theorem storageOf_eq_convertTo_iff (hconsistent : Consistent storage)
    (version : RootSignatureVersion) :
    storageOf version storage.flags (storage.parameters11.map
        (readBack (versionValue version) (flaggedFor version))) storage.staticSamplers =
      convertTo storage version ↔
    (version = .v1_2 → ∀ parameter ∈ storage.parameters11, Fits parameter) := by
  cases version with
  | v1_0 =>
    refine iff_of_true ?_ fun h => absurd h (by decide)
    have hback : readBack (versionValue .v1_0) (flaggedFor .v1_0) =
        fun parameter => toParameter1 (toParameter0 parameter) := funext readBack_v1_0
    have hzero : (storage.parameters11.map fun parameter =>
        toParameter1 (toParameter0 parameter)).map toParameter0 = storage.parameters10 := by
      rw [hconsistent, List.map_map]
      exact List.map_congr_left fun parameter _ => toParameter0_toParameter1 _
    have hone : (storage.parameters11.map fun parameter => toParameter1 (toParameter0 parameter)) =
        storage.parameters10.map toParameter1 := by
      rw [hconsistent, List.map_map]
      rfl
    unfold storageOf convertTo cloneFromDesc0 cloneFromDesc1
    rw [hback, hzero, hone, if_pos rfl]
  | v1_1 =>
    refine iff_of_true ?_ fun h => absurd h (by decide)
    have hback : readBack (versionValue .v1_1) (flaggedFor .v1_1) = id := funext readBack_v1_1
    rw [hback, List.map_id]
    rfl
  | v1_2 =>
    have hmap : storage.parameters11.map (readBack 3 true) = storage.parameters11 ↔
        ∀ parameter ∈ storage.parameters11, Fits parameter := by
      conv_lhs => rw [← List.map_id storage.parameters11, List.map_map]
      rw [List.map_inj_left]
      exact forall₂_congr fun parameter _ => readBack_v1_2_iff parameter
    show cloneFromDesc1 .v1_2 storage.flags (storage.parameters11.map (readBack 3 true))
        storage.staticSamplers =
      cloneFromDesc1 .v1_2 storage.flags storage.parameters11 storage.staticSamplers ↔ _
    rw [← hmap]
    constructor
    · exact fun h _ => congrArg RootSignatureStorage.parameters11 h
    · intro h
      rw [h rfl]

/-- A map that may fail gives one result for each element. -/
theorem mapM_eq_some {α β : Type} {f : α → Option β} {xs : List α} {ys : List β}
    (h : xs.mapM f = some ys) :
    (∀ x ∈ xs, ∃ y, f x = some y) ∧ ∀ y ∈ ys, ∃ x ∈ xs, f x = some y := by
  induction xs generalizing ys with
  | nil =>
    obtain rfl : [] = ys := Option.some.inj h
    exact ⟨List.forall_mem_nil _, List.forall_mem_nil _⟩
  | cons x xs ih =>
    rw [List.mapM_cons] at h
    obtain ⟨y, hy, h⟩ := Option.bind_eq_some_iff.mp h
    obtain ⟨ys', hys, h⟩ := Option.bind_eq_some_iff.mp h
    obtain rfl : y :: ys' = ys := Option.some.inj h
    obtain ⟨hxs, hback⟩ := ih hys
    refine ⟨List.forall_mem_cons.mpr ⟨⟨y, hy⟩, hxs⟩, List.forall_mem_cons.mpr
      ⟨⟨x, List.mem_cons_self, hy⟩, fun y' hmem => ?_⟩⟩
    obtain ⟨x', hx, hy'⟩ := hback y' hmem
    exact ⟨x', List.mem_cons_of_mem x hx, hy'⟩

/-- The parameters of an accepted description are of the known types. -/
theorem known_of_validateDesc {type numDescriptors : Range → Word}
    {parameters : List (RootParameter Range Descriptor)}
    (h : validateDesc type numDescriptors parameters = true) :
    ∀ parameter ∈ parameters, Known parameter.data := by
  unfold validateDesc at h
  rw [Bool.and_eq_true] at h
  cases hcosts : parameters.mapM fun parameter => rootCost parameter.data with
  | none =>
    rw [hcosts] at h
    exact absurd h.2 Bool.false_ne_true
  | some costs =>
    intro parameter hmem t ht
    obtain ⟨cost, hcost⟩ := (mapM_eq_some hcosts).1 parameter hmem
    rw [ht] at hcost
    cases hcost

theorem Known.toParameter1 {parameter : RootParameter0} (h : Known parameter.data) :
    Known (RootSignature.toParameter1 parameter).data := by
  obtain ⟨visibility, data⟩ := parameter
  cases data with
  | other type => exact absurd rfl (h type)
  | _ => exact fun _ h => by cases h

/-- What is kept for both versions is the same description. -/
theorem consistent_of_clone {desc : VersionedRootSignatureDesc}
    (h : cloneFromVersionedDesc desc = some storage) : Consistent storage ∧ AllKnown storage := by
  unfold cloneFromVersionedDesc at h
  cases desc with
  | desc10 flags parameters samplers =>
    obtain ⟨hvalid, hstorage⟩ := Option.ite_none_right_eq_some.mp h
    obtain rfl := Option.some.inj hstorage
    refine ⟨?_, fun parameter hmem => ?_⟩
    · show parameters = (parameters.map toParameter1).map toParameter0
      rw [List.map_map]
      exact ((List.map_congr_left fun p _ => toParameter0_toParameter1 p).trans
        (List.map_id parameters)).symm
    · obtain ⟨original, horiginal, rfl⟩ := List.mem_map.mp hmem
      exact (known_of_validateDesc hvalid original horiginal).toParameter1
  | desc11 flags parameters samplers =>
    obtain ⟨hvalid, hstorage⟩ := Option.ite_none_right_eq_some.mp h
    obtain rfl := Option.some.inj hstorage
    exact ⟨rfl, known_of_validateDesc hvalid⟩
  | desc12 flags parameters samplers =>
    obtain ⟨hvalid, hstorage⟩ := Option.ite_none_right_eq_some.mp h
    obtain rfl := Option.some.inj hstorage
    exact ⟨rfl, known_of_validateDesc hvalid⟩

/-- A parameter that was read is of a known type, and without flags but for version value 2. -/
theorem readParameter_spec {rts0 : List Byte} {headerOffset : Nat}
    (h : readParameter rts0 value headerOffset = some parameter) :
    Known parameter.data ∧
      (value ≠ 2 → toParameter1 (toParameter0 parameter) = parameter) := by
  unfold readParameter at h
  obtain ⟨data, hdata, h⟩ := Option.bind_eq_some_iff.mp h
  obtain rfl := Option.some.inj h
  unfold readParameterData at hdata
  split at hdata
  · obtain ⟨_, _, hdata⟩ := Option.bind_eq_some_iff.mp hdata
    obtain ⟨_, _, hdata⟩ := Option.bind_eq_some_iff.mp hdata
    obtain rfl := Option.some.inj hdata
    refine ⟨(fun _ h => by cases h), fun hvalue => ?_⟩
    have hrange : ∀ offset, DescriptorRange0.toRange1 (DescriptorRange1.toRange0
        (readRange rts0 value offset)) = readRange rts0 value offset := fun offset => by
      unfold readRange
      rw [if_neg hvalue]
      rfl
    simp only [toParameter0, toParameter1, mapParameter, List.map_map, Function.comp_def, hrange]
  split at hdata
  · obtain ⟨_, _, hdata⟩ := Option.bind_eq_some_iff.mp hdata
    obtain rfl := Option.some.inj hdata
    exact ⟨(fun _ h => by cases h), fun _ => rfl⟩
  · obtain ⟨_, _, hdata⟩ := Option.bind_eq_some_iff.mp hdata
    obtain ⟨_, _, hdata⟩ := Option.bind_eq_some_iff.mp hdata
    obtain rfl := Option.some.inj hdata
    refine ⟨(fun _ h => by cases h), fun hvalue => ?_⟩
    unfold readDescriptor
    rw [if_neg hvalue]
    rfl

/-- A storage that was read. -/
theorem parseRts0_spec {rts0 : List Byte} (h : parseRts0 rts0 = some storage) :
    Consistent storage ∧ AllKnown storage ∧ convertTo storage storage.version = storage := by
  unfold parseRts0 at h
  dsimp only at h
  split at h
  · cases h
  split at h
  · cases h
  obtain ⟨_, _, h⟩ := Option.bind_eq_some_iff.mp h
  obtain ⟨_, _, h⟩ := Option.bind_eq_some_iff.mp h
  obtain ⟨parameters, hparameters, h⟩ := Option.bind_eq_some_iff.mp h
  obtain rfl := Option.some.inj h
  have hread : ∀ parameter ∈ parameters, Known parameter.data ∧
      (readU32 rts0 0 ≠ 2 → toParameter1 (toParameter0 parameter) = parameter) :=
    fun parameter hmem => by
      obtain ⟨i, _, hi⟩ := (mapM_eq_some hparameters).2 parameter hmem
      exact readParameter_spec hi
  refine ⟨rfl, fun parameter hmem => (hread parameter hmem).1, ?_⟩
  by_cases hversion : versionFromValue (readU32 rts0 0) = .v1_0
  · have hvalue : readU32 rts0 0 ≠ 2 := fun htwo => by
      rw [htwo] at hversion
      cases hversion
    have hback : (parameters.map toParameter0).map toParameter1 = parameters := by
      rw [List.map_map]
      exact (List.map_congr_left fun p hmem => (hread p hmem).2 hvalue).trans
        (List.map_id parameters)
    unfold convertTo storageOf cloneFromDesc0 cloneFromDesc1
    dsimp only
    rw [hversion, if_pos rfl, hback]
  · exact if_neg hversion

/-- **Round trip.** For an accepted description and a target version, the written blob is read as
the original, converted, exactly when the version is not 1.2 or the records of every parameter fit;
the same holds for a blob that was read and is written at its own version. -/
theorem round_trip_iff (version : RootSignatureVersion) :
    (∀ (desc : VersionedRootSignatureDesc) (storage : RootSignatureStorage),
      cloneFromVersionedDesc desc = some storage →
      (serializeRootSignature storage version).length < 2 ^ 32 →
      (parseRootSignatureBlob (serializeRootSignature storage version) =
          some (convertTo storage version) ↔
        (version = .v1_2 → ∀ parameter ∈ storage.parameters11, Fits parameter))) ∧
    ∀ (blob : List Byte) (storage : RootSignatureStorage),
      parseRootSignatureBlob blob = some storage → storage.version = version →
      (serializeRootSignature storage version).length < 2 ^ 32 →
      (parseRootSignatureBlob (serializeRootSignature storage version) = some storage ↔
        (version = .v1_2 → ∀ parameter ∈ storage.parameters11, Fits parameter)) := by
  constructor
  · intro desc storage hclone hsize
    obtain ⟨hconsistent, hknown⟩ := consistent_of_clone hclone
    rw [parse_serialize hconsistent hknown version hsize, Option.some.injEq]
    exact storageOf_eq_convertTo_iff hconsistent version
  · rintro blob storage hparse rfl hsize
    obtain ⟨rts0, _, hrts0⟩ := Option.bind_eq_some_iff.mp hparse
    obtain ⟨hconsistent, hknown, hown⟩ := parseRts0_spec hrts0
    rw [parse_serialize hconsistent hknown storage.version hsize, Option.some.injEq]
    have hiff := storageOf_eq_convertTo_iff hconsistent storage.version
    rw [hown] at hiff
    exact hiff

/-- A table whose range is appended, and a root descriptor. -/
def appendedParameters (flags : Word) : List RootParameter1 :=
  [⟨0, .descriptorTable [⟨0, 4, 0, 0, 0, 0xffffffff⟩]⟩, ⟨5, .descriptor .cbv ⟨2, 0, flags⟩⟩]

/-- The parameters are written and read at version 1.1. -/
theorem round_trip_iff_appended :
    parseRootSignatureBlob
        (serializeRootSignature (cloneFromDesc1 .v1_2 1 (appendedParameters 8) []) .v1_1) =
      some (convertTo (cloneFromDesc1 .v1_2 1 (appendedParameters 8) []) .v1_1) :=
  ((round_trip_iff .v1_1).1 (.desc12 1 (appendedParameters 8) []) _ (by decide +kernel)
    (by decide +kernel)).mpr fun h => absurd h (by decide)

/-- At version 1.2 the offset of the range is read where its flags were written. -/
theorem offset_lost : ¬ ∀ (desc : VersionedRootSignatureDesc) (storage : RootSignatureStorage)
    (version : RootSignatureVersion), cloneFromVersionedDesc desc = some storage →
      (serializeRootSignature storage version).length < 2 ^ 32 →
      parseRootSignatureBlob (serializeRootSignature storage version) =
        some (convertTo storage version) := fun h => by
  have hread := h (.desc12 1 (appendedParameters 0) [])
    (cloneFromDesc1 .v1_2 1 (appendedParameters 0) []) .v1_2 (by decide +kernel) (by decide +kernel)
  exact absurd hread (by decide +kernel)

end RootSignature

end Dxmt
