import Dxmt.ByteWords
import Dxmt.ReferenceTables
import Dxmt.RingBump

/-!
# Runtime data of a DXIL container

`ParseRuntimeData` finds the parts of the blob, and reads the records of thirteen kinds of tables
from the first part of each kind. Records refer to each other by index, and strings, bytes and lists
of indices are in parts of their own. `ValidateRuntimeDataInfo` then looks at what was read.

Sizes are `size_t` of 64 bits, in which the product of two words does not wrap around. A status
other than `InvalidRuntimeData` is not returned, which is `none`.
-/

namespace Dxmt

namespace RuntimeData

open ReferenceTables

/-! ## Constants -/

/-- Bytes of the header of the blob. -/
def kRuntimeDataHeaderSize : Nat := 8

/-- Bytes of the header of a part. -/
def kRuntimeDataPartHeaderSize : Nat := 8

/-- Bytes of the header of a table. -/
def kRuntimeDataTableHeaderSize : Nat := 8

/-- The reference to nothing. -/
def kRdatNullRef : Word := 0xffffffff

/-- Bytes of a resource record. -/
def kRdatResourceRecordSize : Nat := 32

/-- Bytes of a function record. -/
def kRdatFunctionRecordSize : Nat := 44

/-- Bytes of a function record with a reference to its shader. -/
def kRdatFunctionRecord2Size : Nat := 52

/-- Bytes of a subobject record. -/
def kRdatSubobjectRecordSize : Nat := 24

/-- Bytes of a record of a node's name. -/
def kRdatNodeIdRecordSize : Nat := 8

/-- Bytes of a record of a node function's attribute. -/
def kRdatNodeShaderFuncAttribRecordSize : Nat := 8

/-- Bytes of a record of an attribute of a node's input or output. -/
def kRdatNodeShaderIoAttribRecordSize : Nat := 8

/-- Bytes of a record of a node's input or output. -/
def kRdatIoNodeRecordSize : Nat := 8

/-- Bytes of a record of a node shader. -/
def kRdatNodeShaderInfoRecordSize : Nat := 20

/-- Bytes of a record of a source file. -/
def kRdatPdbInfoSourceRecordSize : Nat := 8

/-- Bytes of a record of a library. -/
def kRdatPdbInfoLibraryRecordSize : Nat := 12

/-- Bytes of the record of what a shader was compiled from. -/
def kRdatPdbInfoRecordSize : Nat := 44

/-- Bytes of a signature element that are read; its record is longer. -/
def kRdatSignatureElementRecordPayloadSize : Nat := 14

/-- Bytes of a record of a vertex shader. -/
def kRdatVSInfoRecordSize : Nat := 16

/-- Bytes of a record of a pixel shader. -/
def kRdatPSInfoRecordSize : Nat := 8

/-- Bytes of a record of a hull shader. -/
def kRdatHSInfoRecordSize : Nat := 48

/-- Bytes of a record of a domain shader. -/
def kRdatDSInfoRecordSize : Nat := 38

/-- Bytes of a record of a geometry shader. -/
def kRdatGSInfoRecordSize : Nat := 28

/-- Bytes of a record of a compute shader. -/
def kRdatCSInfoRecordSize : Nat := 8

/-- Bytes of a record of a mesh shader. -/
def kRdatMSInfoRecordSize : Nat := 45

/-- Bytes of a record of an amplification shader. -/
def kRdatASInfoRecordSize : Nat := 12

/-! The types of parts. -/

namespace Rdat

/-- Strings that end in a zero. -/
def stringBuffer : Word := 1

/-- Lists of words, each behind its length. -/
def indexArrays : Word := 2

/-- The resources of all functions. -/
def resourceTable : Word := 3

/-- The functions of a library. -/
def functionTable : Word := 4

/-- Bytes that records refer to by offset and size. -/
def rawBytes : Word := 5

/-- State subobjects. -/
def subobjectTable : Word := 6

/-- Names of nodes. -/
def nodeIDTable : Word := 7

/-- Attributes of the inputs and outputs of nodes. -/
def nodeShaderIOAttribTable : Word := 8

/-- Attributes of node functions. -/
def nodeShaderFuncAttribTable : Word := 9

/-- Inputs and outputs of nodes. -/
def ioNodeTable : Word := 10

/-- Node shaders. -/
def nodeShaderInfoTable : Word := 11

/-- Elements of signatures. -/
def signatureElementTable : Word := 13

/-- Vertex shaders. -/
def vsInfoTable : Word := 14

/-- Pixel shaders. -/
def psInfoTable : Word := 15

/-- Hull shaders. -/
def hsInfoTable : Word := 16

/-- Domain shaders. -/
def dsInfoTable : Word := 17

/-- Geometry shaders. -/
def gsInfoTable : Word := 18

/-- Compute shaders. -/
def csInfoTable : Word := 19

/-- Mesh shaders. -/
def msInfoTable : Word := 20

/-- Amplification shaders. -/
def asInfoTable : Word := 21

/-- What the shader was compiled from. -/
def dxilPdbInfoTable : Word := 0x10001

/-- Source files. -/
def dxilPdbInfoSourceTable : Word := 0x10002

/-- Libraries. -/
def dxilPdbInfoLibraryTable : Word := 0x10003

end Rdat

/-- `isRdatTablePart`: the parts that begin with a table header. -/
def isRdatTablePart (type : Word) : Bool :=
  type ∈ [3, 4, 6, 7, 8, 9, 10, 11, 12, 13, 14, 15, 16, 17, 18, 19, 20, 21, 0x10001, 0x10002,
    0x10003]

/-! ## Records -/

/-- `std::string`, as its bytes. -/
abbrev Text := List Byte

/-- `RuntimeDataPartInfo`. Of a part that is a table, the header too. -/
structure RuntimeDataPartInfo where
  type : Word := 0
  size : Word := 0
  data : List Byte := []
  isTable : Bool := false
  recordCount : Word := 0
  recordStride : Word := 0
  tableData : List Byte := []

/-- A resource, with its range of registers. -/
structure RdatResourceInfo where
  name : Text := []
  resourceClass : Word := 0
  kind : Word := 0
  id : Word := 0
  space : Word := 0
  lowerBound : Word := 0
  upperBound : Word := 0
  flags : Word := 0

/-- A function, with what it uses by index. -/
structure RdatFunctionInfo where
  name : Text := []
  unmangledName : Text := []
  resourceIndices : List Word := []
  functionDependencies : List Text := []
  shaderKind : Word := 0
  payloadSizeInBytes : Word := 0
  attributeSizeInBytes : Word := 0
  featureInfo1 : Word := 0
  featureInfo2 : Word := 0
  shaderStageFlag : Word := 0
  minShaderTarget : Word := 0
  minimumExpectedWaveLaneCount : Byte := 0
  maximumExpectedWaveLaneCount : Byte := 0
  shaderFlags : BitVec 16 := 0
  hasShaderInfo : Bool := false
  shaderInfoTableType : Word := 0
  shaderInfoIndex : Word := 0

/-- An element of a signature. -/
structure RdatSignatureElementInfo where
  semanticName : Text := []
  semanticIndices : List Word := []
  semanticKind : Byte := 0
  componentType : Byte := 0
  interpolationMode : Byte := 0
  startRow : Byte := 0xff
  cols : Byte := 0
  startCol : Byte := 0
  outputStream : Byte := 0
  usageMask : Byte := 0
  dynamicIndexMask : Byte := 0

/-- A shader of any stage. Fields that its stage does not have keep their defaults. -/
structure RdatShaderInfo where
  tableType : Word := 0
  recordIndex : Word := 0
  inputSignatureIndices : List Word := []
  outputSignatureIndices : List Word := []
  patchConstantSignatureIndices : List Word := []
  primitiveSignatureIndices : List Word := []
  viewIdOutputMask : List Byte := []
  viewIdPatchConstantOutputMask : List Byte := []
  viewIdPrimitiveOutputMask : List Byte := []
  inputToOutputMasks : List Byte := []
  inputToPatchConstantOutputMasks : List Byte := []
  patchConstantInputToOutputMasks : List Byte := []
  numThreads : Word × Word × Word := (1, 1, 1)
  groupSharedBytesUsed : Word := 0
  groupSharedBytesDependentOnViewId : Word := 0
  payloadSizeInBytes : Word := 0
  maxOutputVertices : BitVec 16 := 0
  maxOutputPrimitives : BitVec 16 := 0
  inputControlPointCount : Byte := 0
  outputControlPointCount : Byte := 0
  tessellatorDomain : Byte := 0
  tessellatorOutputPrimitive : Byte := 0
  inputPrimitive : Byte := 0
  outputTopology : Byte := 0
  maxVertexCount : Byte := 0
  outputStreamMask : Byte := 0
  meshOutputTopology : Byte := 0

/-- A subobject. Which fields are set depends on its kind. -/
structure RdatSubobjectInfo where
  kind : Word := 0
  name : Text := []
  stateObjectFlags : Word := 0
  rootSignature : List Byte := []
  associatedSubobject : Text := []
  associatedExports : List Text := []
  maxPayloadSizeInBytes : Word := 0
  maxAttributeSizeInBytes : Word := 0
  maxTraceRecursionDepth : Word := 0
  raytracingPipelineFlags : Word := 0
  hitGroupType : Word := 0
  anyHit : Text := []
  closestHit : Text := []
  intersection : Text := []

/-- The name of a node, and its place in an array of nodes. -/
structure RdatNodeIdInfo where
  name : Text := []
  index : Word := 0

/-- Where a record holds its dispatch grid. -/
structure RdatRecordDispatchGridInfo where
  byteOffset : BitVec 16 := 0
  componentCount : Byte := 0
  componentType : BitVec 16 := 0

/-- An attribute of a node function. -/
structure RdatNodeShaderFuncAttribInfo where
  kind : Word := 0
  nodeIdIndex : Word := 0
  values : List Word := []
  value : Word := 0

/-- An attribute of an input or output of a node. -/
structure RdatNodeShaderIoAttribInfo where
  kind : Word := 0
  nodeIdIndex : Word := 0
  value : Word := 0
  recordDispatchGrid : RdatRecordDispatchGridInfo := {}

/-- An input or output of a node, with its attributes by index. -/
structure RdatIoNodeInfo where
  ioFlagsAndKind : Word := 0
  attributeIndices : List Word := []

/-- A node shader, with its attributes, inputs and outputs by index. -/
structure RdatNodeShaderInfo where
  launchType : Word := 0
  groupSharedBytesUsed : Word := 0
  attributeIndices : List Word := []
  outputIndices : List Word := []
  inputIndices : List Word := []

/-- A source file. -/
structure RdatPdbInfoSource where
  name : Text := []
  content : Text := []

/-- A library. -/
structure RdatPdbInfoLibrary where
  name : Text := []
  data : List Byte := []

/-- What the shader was compiled from, with its files and libraries by index. -/
structure RdatPdbInfo where
  sourceIndices : List Word := []
  libraryIndices : List Word := []
  argPairs : List Text := []
  hash : List Byte := []
  pdbName : Text := []
  customToolchainId : Word := 0
  customToolchainData : List Byte := []
  wholeDxil : List Byte := []

/-- `RuntimeDataInfo`: the parts, and the records of all tables. -/
structure RuntimeDataInfo where
  version : Word := 0
  partCount : Word := 0
  parts : List RuntimeDataPartInfo := []
  resources : List RdatResourceInfo := []
  functions : List RdatFunctionInfo := []
  signatureElements : List RdatSignatureElementInfo := []
  shaderInfos : List RdatShaderInfo := []
  subobjects : List RdatSubobjectInfo := []
  nodeIds : List RdatNodeIdInfo := []
  nodeFunctionAttributes : List RdatNodeShaderFuncAttribInfo := []
  nodeIoAttributes : List RdatNodeShaderIoAttribInfo := []
  ioNodes : List RdatIoNodeInfo := []
  nodeShaderInfos : List RdatNodeShaderInfo := []
  pdbSources : List RdatPdbInfoSource := []
  pdbLibraries : List RdatPdbInfoLibrary := []
  pdbInfos : List RdatPdbInfo := []

/-! ## Reading what records refer to -/

/-- A little-endian half word. -/
def readU16 (data : List Byte) (offset : Nat) : BitVec 16 :=
  (byteAt data offset).setWidth 16 ||| (byteAt data (offset + 1)).setWidth 16 <<< 8

/-- `span.subspan(offset, size)`. -/
def subspan (data : List Byte) (offset size : Nat) : List Byte :=
  (data.drop offset).take size

/-- The bytes before the first zero, which must be there. -/
def readString (data : List Byte) (offset : Nat) : Option Text :=
  if 0 ∈ data.drop offset then some ((data.drop offset).takeWhile (· ≠ 0)) else none

/-- The first part of a type. -/
def findPart (parts : List RuntimeDataPartInfo) (type : Word) : Option RuntimeDataPartInfo :=
  parts.find? fun part => part.type = type

namespace RuntimeDataInfo

variable (info : RuntimeDataInfo)

/-- The shader of a record of a table. -/
def findShaderInfo (tableType recordIndex : Word) : Option RdatShaderInfo :=
  info.shaderInfos.find? fun shader => shader.tableType = tableType ∧ shader.recordIndex =
    recordIndex

/-- `readString`: in the string part, if there is one. -/
def readString (offset : Word) : Option Text :=
  match findPart info.parts Rdat.stringBuffer with
  | none => none
  | some strings => RuntimeData.readString strings.data offset.toNat

/-- `readIndexArray`: in the part of index arrays, if there is one. -/
def readIndexArray (offset : Word) : Option (List Word) :=
  match findPart info.parts Rdat.indexArrays with
  | none => none
  | some indices =>
    if offset = kRdatNullRef then none
    else
      let count := indices.data.length / 4
      if count < 1 ∨ offset.toNat ≥ count - 1 then none
      else
        let byteOffset := offset.toNat * 4
        let elementCount := (readU32 indices.data byteOffset).toNat
        if elementCount > count - offset.toNat - 1 then none
        else some ((List.range elementCount).map fun i => readU32 indices.data (byteOffset +
        4 * (i + 1)))

/-- `readBytes`: in the part of raw bytes, if there is one. -/
def readBytes (offset size : Word) : Option (List Byte) :=
  match findPart info.parts Rdat.rawBytes with
  | none => none
  | some rawBytes =>
    (checkedEnd offset.toNat size.toNat rawBytes.data.length).map fun _ =>
      subspan rawBytes.data offset.toNat size.toNat

/-- A null reference is the empty string. -/
def readNullableRdatString (offset : Word) : Option Text :=
  if offset = kRdatNullRef then some [] else info.readString offset

/-- A null reference is the empty list. -/
def readNullableRdatIndexArray (offset : Word) : Option (List Word) :=
  if offset = kRdatNullRef then some [] else info.readIndexArray offset

/-- A list of references to strings. -/
def readNullableRdatStringArray (offset : Word) : Option (List Text) := do
  let stringOffsets ← info.readNullableRdatIndexArray offset
  stringOffsets.mapM info.readNullableRdatString

/-- Every index is below the number of records. -/
def readNullableRdatRecordArray (offset : Word) (recordCount : Nat) : Option (List Word) :=
  (info.readNullableRdatIndexArray offset).filter fun out => out.all fun index => index.toNat <
    recordCount

/-- No bytes need no part, and a null reference to some is refused. -/
def readNullableRdatBytes (offset size : Word) : Option (List Byte) :=
  if size = 0 then some []
  else if offset = kRdatNullRef then none
  else info.readBytes offset size

/-- The threads of a group; sizes that are left out are one. -/
def readRdatNumThreads (offset : Word) : Option (Word × Word × Word) := do
  let values ← info.readNullableRdatIndexArray offset
  some (values[0]?.getD 1, values[1]?.getD 1, values[2]?.getD 1)

/-- A list of signature elements. -/
def readRdatSignatureArray (offset : Word) : Option (List Word) :=
  info.readNullableRdatRecordArray offset info.signatureElements.length

end RuntimeDataInfo

/-! ## Tables -/

/-- The records of the first table of a type, each read at its offset. An absent table leaves what
was there, and the records of a table are not shorter than what is read of one. -/
def parseTable {α : Type} (info : RuntimeDataInfo) (type : Word) (recordSize : Nat)
    (absent : List α) (parseRecord : RuntimeDataPartInfo → Nat → Option α) : Option (List α) :=
  match findPart info.parts type with
  | none => some absent
  | some table =>
    if table.recordCount = 0 then some []
    else if table.isTable = false ∨ table.recordStride.toNat < recordSize then none
    else readRecords (parseRecord table) table.recordCount.toNat

/-- The first bytes of a record of a table. -/
def RuntimeDataPartInfo.record (table : RuntimeDataPartInfo) (i size : Nat) : List Byte :=
  subspan table.tableData (i * table.recordStride.toNat) size

/-- A resource record. -/
def parseResource (info : RuntimeDataInfo) (table : RuntimeDataPartInfo) (i : Nat) :
    Option RdatResourceInfo := do
  let record := table.record i kRdatResourceRecordSize
  let name ← info.readNullableRdatString (readU32 record 24)
  some {
    resourceClass := readU32 record 0
    kind := readU32 record 4
    id := readU32 record 8
    space := readU32 record 12
    lowerBound := readU32 record 16
    upperBound := readU32 record 20
    flags := readU32 record 28
    name := name }

/-- `ParseRuntimeDataResourceTable`. -/
def parseRuntimeDataResourceTable (info : RuntimeDataInfo) : Option RuntimeDataInfo := do
  let resources ← parseTable info Rdat.resourceTable kRdatResourceRecordSize info.resources
    (parseResource info)
  some { info with resources := resources }

/-- What a subobject holds depends on its kind. -/
def parseSubobjectPayload (info : RuntimeDataInfo) (payload : List Byte)
    (subobject : RdatSubobjectInfo) :
    Option RdatSubobjectInfo :=
  match subobject.kind.toNat with
  | 0 => some { subobject with stateObjectFlags := readU32 payload 0 }
  | 1 | 2 => do
    let rootSignature ← info.readNullableRdatBytes (readU32 payload 0) (readU32 payload 4)
    some { subobject with rootSignature := rootSignature }
  | 8 => do
    let associatedSubobject ← info.readNullableRdatString (readU32 payload 0)
    let associatedExports ← info.readNullableRdatStringArray (readU32 payload 4)
    some { subobject with
      associatedSubobject := associatedSubobject, associatedExports := associatedExports }
  | 9 => some { subobject with
      maxPayloadSizeInBytes := readU32 payload 0, maxAttributeSizeInBytes := readU32 payload 4 }
  | 10 => some { subobject with maxTraceRecursionDepth := readU32 payload 0 }
  | 11 => do
    let anyHit ← info.readNullableRdatString (readU32 payload 4)
    let closestHit ← info.readNullableRdatString (readU32 payload 8)
    let intersection ← info.readNullableRdatString (readU32 payload 12)
    some { subobject with
      hitGroupType := readU32 payload 0
      anyHit := anyHit
      closestHit := closestHit
      intersection := intersection }
  | 12 => some { subobject with
      maxTraceRecursionDepth := readU32 payload 0, raytracingPipelineFlags := readU32 payload 4 }
  | _ => some subobject

/-- A subobject record. -/
def parseSubobject (info : RuntimeDataInfo) (table : RuntimeDataPartInfo) (i : Nat) :
    Option RdatSubobjectInfo := do
  let record := table.record i kRdatSubobjectRecordSize
  let name ← info.readNullableRdatString (readU32 record 4)
  parseSubobjectPayload info (record.drop 8) { kind := readU32 record 0, name := name }

/-- `ParseRuntimeDataSubobjectTable`. -/
def parseRuntimeDataSubobjectTable (info : RuntimeDataInfo) : Option RuntimeDataInfo := do
  let subobjects ← parseTable info Rdat.subobjectTable kRdatSubobjectRecordSize []
      (parseSubobject info)
  some { info with subobjects := subobjects }

/-- A record of a node's name. -/
def parseNodeId (info : RuntimeDataInfo) (table : RuntimeDataPartInfo) (i : Nat) :
    Option RdatNodeIdInfo := do
  let record := table.record i kRdatNodeIdRecordSize
  let name ← info.readNullableRdatString (readU32 record 0)
  some { name := name, index := readU32 record 4 }

/-- `ParseRuntimeDataNodeIdTable`. -/
def parseRuntimeDataNodeIdTable (info : RuntimeDataInfo) : Option RuntimeDataInfo := do
  let nodeIds ← parseTable info Rdat.nodeIDTable kRdatNodeIdRecordSize [] (parseNodeId info)
  some { info with nodeIds := nodeIds }

/-- A record of a node function's attribute, whose kind says what its word is. -/
def parseNodeShaderFuncAttrib (info : RuntimeDataInfo) (table : RuntimeDataPartInfo) (i : Nat) :
    Option RdatNodeShaderFuncAttribInfo :=
  let record := table.record i kRdatNodeShaderFuncAttribRecordSize
  let attrib : RdatNodeShaderFuncAttribInfo := { kind := readU32 record 0 }
  let payload := readU32 record 4
  match attrib.kind.toNat with
  | 1 | 3 =>
    if payload.toNat ≥ info.nodeIds.length then none else some { attrib with nodeIdIndex :=
        payload }
  | 2 | 4 | 7 => do
    let values ← info.readNullableRdatIndexArray payload
    some { attrib with values := values }
  | 5 | 6 | 8 | 9 => some { attrib with value := payload }
  | _ => some attrib

/-- `ParseRuntimeDataNodeShaderFuncAttribTable`. -/
def parseRuntimeDataNodeShaderFuncAttribTable (info : RuntimeDataInfo) :
    Option RuntimeDataInfo := do
  let nodeFunctionAttributes ← parseTable info Rdat.nodeShaderFuncAttribTable
    kRdatNodeShaderFuncAttribRecordSize [] (parseNodeShaderFuncAttrib info)
  some { info with nodeFunctionAttributes := nodeFunctionAttributes }

/-- A record of an input's or output's attribute, whose kind says what its word is. -/
def parseNodeShaderIoAttrib (info : RuntimeDataInfo) (table : RuntimeDataPartInfo) (i : Nat) :
    Option RdatNodeShaderIoAttribInfo :=
  let record := table.record i kRdatNodeShaderIoAttribRecordSize
  let attrib : RdatNodeShaderIoAttribInfo := { kind := readU32 record 0 }
  match attrib.kind.toNat with
  | 1 =>
    let nodeIdIndex := readU32 record 4
    if nodeIdIndex.toNat ≥ info.nodeIds.length then none
    else some { attrib with nodeIdIndex := nodeIdIndex }
  | 5 =>
    let component := readU16 record 6
    some { attrib with
      recordDispatchGrid := {
        byteOffset := readU16 record 4
        componentCount := (component &&& 3).setWidth 8
        componentType := component >>> 2 } }
  | 2 | 3 | 4 | 6 | 7 | 8 => some { attrib with value := readU32 record 4 }
  | _ => some attrib

/-- `ParseRuntimeDataNodeShaderIoAttribTable`. -/
def parseRuntimeDataNodeShaderIoAttribTable (info : RuntimeDataInfo) : Option RuntimeDataInfo := do
  let nodeIoAttributes ← parseTable info Rdat.nodeShaderIOAttribTable
    kRdatNodeShaderIoAttribRecordSize [] (parseNodeShaderIoAttrib info)
  some { info with nodeIoAttributes := nodeIoAttributes }

/-- A record of an input or output of a node. -/
def parseIoNode (info : RuntimeDataInfo) (table : RuntimeDataPartInfo) (i : Nat) :
    Option RdatIoNodeInfo := do
  let record := table.record i kRdatIoNodeRecordSize
  let attributeIndices ← info.readNullableRdatRecordArray
      (readU32 record 4) info.nodeIoAttributes.length
  some { ioFlagsAndKind := readU32 record 0, attributeIndices := attributeIndices }

/-- `ParseRuntimeDataIoNodeTable`. -/
def parseRuntimeDataIoNodeTable (info : RuntimeDataInfo) : Option RuntimeDataInfo := do
  let ioNodes ← parseTable info Rdat.ioNodeTable kRdatIoNodeRecordSize [] (parseIoNode info)
  some { info with ioNodes := ioNodes }

/-- A record of a node shader. -/
def parseNodeShaderInfo (info : RuntimeDataInfo) (table : RuntimeDataPartInfo) (i : Nat) :
    Option RdatNodeShaderInfo := do
  let record := table.record i kRdatNodeShaderInfoRecordSize
  let attributeIndices ←
    info.readNullableRdatRecordArray (readU32 record 8) info.nodeFunctionAttributes.length
  let outputIndices ← info.readNullableRdatRecordArray (readU32 record 12) info.ioNodes.length
  let inputIndices ← info.readNullableRdatRecordArray (readU32 record 16) info.ioNodes.length
  some {
    launchType := readU32 record 0
    groupSharedBytesUsed := readU32 record 4
    attributeIndices := attributeIndices
    outputIndices := outputIndices
    inputIndices := inputIndices }

/-- `ParseRuntimeDataNodeShaderInfoTable`. -/
def parseRuntimeDataNodeShaderInfoTable (info : RuntimeDataInfo) : Option RuntimeDataInfo := do
  let nodeShaderInfos ← parseTable info Rdat.nodeShaderInfoTable kRdatNodeShaderInfoRecordSize []
    (parseNodeShaderInfo info)
  some { info with nodeShaderInfos := nodeShaderInfos }

/-- The table that the shader info of a kind of shader is in. -/
def shaderInfoTable (shaderKind : Word) : Option Word :=
  match shaderKind.toNat with
  | 0 => some Rdat.psInfoTable
  | 1 => some Rdat.vsInfoTable
  | 2 => some Rdat.gsInfoTable
  | 3 => some Rdat.hsInfoTable
  | 4 => some Rdat.dsInfoTable
  | 5 => some Rdat.csInfoTable
  | 13 => some Rdat.msInfoTable
  | 14 => some Rdat.asInfoTable
  | 15 => some Rdat.nodeShaderInfoTable
  | _ => none

/-- What a longer record of a function has in addition. -/
def RdatFunctionInfo.readRecord2 (function : RdatFunctionInfo) (record2 : List Byte) :
    RdatFunctionInfo :=
  let function := { function with
    minimumExpectedWaveLaneCount := byteAt record2 44
    maximumExpectedWaveLaneCount := byteAt record2 45
    shaderFlags := readU16 record2 46
    shaderInfoIndex := readU32 record2 48 }
  match shaderInfoTable function.shaderKind with
  | none => function
  | some tableType => { function with
      shaderInfoTableType := tableType
      hasShaderInfo := function.shaderInfoIndex ≠ kRdatNullRef }

/-- The shader info of a function is there: that of a node is in a table of its own. -/
def RdatFunctionInfo.shaderInfoFound (function : RdatFunctionInfo) (info : RuntimeDataInfo) :
    Bool :=
  !function.hasShaderInfo ||
    if function.shaderInfoTableType = Rdat.nodeShaderInfoTable then
      function.shaderInfoIndex.toNat < info.nodeShaderInfos.length
    else (info.findShaderInfo function.shaderInfoTableType function.shaderInfoIndex).isSome

/-- The fields of a function that are in its record. -/
def functionFields (table : RuntimeDataPartInfo) (i : Nat) : RdatFunctionInfo :=
  let record := table.record i kRdatFunctionRecordSize
  let function : RdatFunctionInfo := {
    shaderKind := readU32 record 16
    payloadSizeInBytes := readU32 record 20
    attributeSizeInBytes := readU32 record 24
    featureInfo1 := readU32 record 28
    featureInfo2 := readU32 record 32
    shaderStageFlag := readU32 record 36
    minShaderTarget := readU32 record 40 }
  if kRdatFunctionRecord2Size ≤ table.recordStride.toNat then
    function.readRecord2 (table.record i kRdatFunctionRecord2Size)
  else function

/-- A function record. -/
def parseFunction (info : RuntimeDataInfo) (table : RuntimeDataPartInfo) (i : Nat) :
    Option RdatFunctionInfo := do
  let record := table.record i kRdatFunctionRecordSize
  let name ← info.readNullableRdatString (readU32 record 0)
  let unmangledName ← info.readNullableRdatString (readU32 record 4)
  let resourceIndices ← info.readNullableRdatIndexArray (readU32 record 8)
  if resourceIndices.any fun index => index.toNat ≥ info.resources.length then none
  else
    let functionDependencies ← info.readNullableRdatStringArray (readU32 record 12)
    if (functionFields table i).shaderInfoFound info then
      some { functionFields table i with
        name := name
        unmangledName := unmangledName
        resourceIndices := resourceIndices
        functionDependencies := functionDependencies }
    else none

/-- `ParseRuntimeDataFunctionTable`. -/
def parseRuntimeDataFunctionTable (info : RuntimeDataInfo) : Option RuntimeDataInfo := do
  let functions ← parseTable info Rdat.functionTable kRdatFunctionRecordSize info.functions
    (parseFunction info)
  some { info with functions := functions }

/-- A record of a signature element. -/
def parseSignatureElement (info : RuntimeDataInfo) (table : RuntimeDataPartInfo) (i : Nat) :
    Option RdatSignatureElementInfo := do
  let record := table.record i kRdatSignatureElementRecordPayloadSize
  let colsAndStream := byteAt record 12
  let usageAndDynIndexMasks := byteAt record 13
  let semanticName ← info.readNullableRdatString (readU32 record 0)
  let semanticIndices ← info.readNullableRdatIndexArray (readU32 record 4)
  some {
    semanticName := semanticName
    semanticIndices := semanticIndices
    semanticKind := byteAt record 8
    componentType := byteAt record 9
    interpolationMode := byteAt record 10
    startRow := byteAt record 11
    cols := (colsAndStream &&& 3) + 1
    startCol := colsAndStream >>> 2 &&& 3
    outputStream := colsAndStream >>> 4 &&& 3
    usageMask := usageAndDynIndexMasks &&& 0xf
    dynamicIndexMask := usageAndDynIndexMasks >>> 4 &&& 0xf }

/-- `ParseRuntimeDataSignatureElementTable`. -/
def parseRuntimeDataSignatureElementTable (info : RuntimeDataInfo) : Option RuntimeDataInfo := do
  let signatureElements ← parseTable info Rdat.signatureElementTable
    kRdatSignatureElementRecordPayloadSize
    info.signatureElements (parseSignatureElement info)
  some { info with signatureElements := signatureElements }

/-! ## Shader info -/

section ShaderInfo

variable (info : RuntimeDataInfo) (record : List Byte) (shader : RdatShaderInfo)

/-- A vertex shader's record. -/
def parseVSInfo : Option RdatShaderInfo := do
  let inputs ← info.readRdatSignatureArray (readU32 record 0)
  let outputs ← info.readRdatSignatureArray (readU32 record 4)
  let viewIdOutputMask ← info.readNullableRdatBytes (readU32 record 8) (readU32 record 12)
  some { shader with
    inputSignatureIndices := inputs
    outputSignatureIndices := outputs
    viewIdOutputMask := viewIdOutputMask }

/-- A pixel shader's record. -/
def parsePSInfo : Option RdatShaderInfo := do
  let inputs ← info.readRdatSignatureArray (readU32 record 0)
  let outputs ← info.readRdatSignatureArray (readU32 record 4)
  some { shader with inputSignatureIndices := inputs, outputSignatureIndices := outputs }

/-- A hull shader's record. -/
def parseHSInfo : Option RdatShaderInfo := do
  let inputs ← info.readRdatSignatureArray (readU32 record 0)
  let outputs ← info.readRdatSignatureArray (readU32 record 4)
  let patchConstants ← info.readRdatSignatureArray (readU32 record 8)
  let viewIdOutputMask ← info.readNullableRdatBytes (readU32 record 12) (readU32 record 16)
  let viewIdPatchConstantOutputMask ← info.readNullableRdatBytes (readU32 record 20)
      (readU32 record 24)
  let inputToOutputMasks ← info.readNullableRdatBytes (readU32 record 28) (readU32 record 32)
  let inputToPatchConstantOutputMasks ← info.readNullableRdatBytes (readU32 record 36)
      (readU32 record 40)
  some { shader with
    inputSignatureIndices := inputs
    outputSignatureIndices := outputs
    patchConstantSignatureIndices := patchConstants
    viewIdOutputMask := viewIdOutputMask
    viewIdPatchConstantOutputMask := viewIdPatchConstantOutputMask
    inputToOutputMasks := inputToOutputMasks
    inputToPatchConstantOutputMasks := inputToPatchConstantOutputMasks
    inputControlPointCount := byteAt record 44
    outputControlPointCount := byteAt record 45
    tessellatorDomain := byteAt record 46
    tessellatorOutputPrimitive := byteAt record 47 }

/-- A domain shader's record. -/
def parseDSInfo : Option RdatShaderInfo := do
  let inputs ← info.readRdatSignatureArray (readU32 record 0)
  let outputs ← info.readRdatSignatureArray (readU32 record 4)
  let patchConstants ← info.readRdatSignatureArray (readU32 record 8)
  let viewIdOutputMask ← info.readNullableRdatBytes (readU32 record 12) (readU32 record 16)
  let inputToOutputMasks ← info.readNullableRdatBytes (readU32 record 20) (readU32 record 24)
  let patchConstantInputToOutputMasks ← info.readNullableRdatBytes (readU32 record 28)
      (readU32 record 32)
  some { shader with
    inputSignatureIndices := inputs
    outputSignatureIndices := outputs
    patchConstantSignatureIndices := patchConstants
    viewIdOutputMask := viewIdOutputMask
    inputToOutputMasks := inputToOutputMasks
    patchConstantInputToOutputMasks := patchConstantInputToOutputMasks
    inputControlPointCount := byteAt record 36
    tessellatorDomain := byteAt record 37 }

/-- A geometry shader's record. -/
def parseGSInfo : Option RdatShaderInfo := do
  let inputs ← info.readRdatSignatureArray (readU32 record 0)
  let outputs ← info.readRdatSignatureArray (readU32 record 4)
  let viewIdOutputMask ← info.readNullableRdatBytes (readU32 record 8) (readU32 record 12)
  let inputToOutputMasks ← info.readNullableRdatBytes (readU32 record 16) (readU32 record 20)
  some { shader with
    inputSignatureIndices := inputs
    outputSignatureIndices := outputs
    viewIdOutputMask := viewIdOutputMask
    inputToOutputMasks := inputToOutputMasks
    inputPrimitive := byteAt record 24
    outputTopology := byteAt record 25
    maxVertexCount := byteAt record 26
    outputStreamMask := byteAt record 27 }

/-- A compute shader's record. -/
def parseCSInfo : Option RdatShaderInfo := do
  let numThreads ← info.readRdatNumThreads (readU32 record 0)
  some { shader with numThreads := numThreads, groupSharedBytesUsed := readU32 record 4 }

/-- A mesh shader's record. -/
def parseMSInfo : Option RdatShaderInfo := do
  let outputs ← info.readRdatSignatureArray (readU32 record 0)
  let primitives ← info.readRdatSignatureArray (readU32 record 4)
  let viewIdOutputMask ← info.readNullableRdatBytes (readU32 record 8) (readU32 record 12)
  let viewIdPrimitiveOutputMask ← info.readNullableRdatBytes (readU32 record 16) (readU32 record 20)
  let numThreads ← info.readRdatNumThreads (readU32 record 24)
  some { shader with
    outputSignatureIndices := outputs
    primitiveSignatureIndices := primitives
    viewIdOutputMask := viewIdOutputMask
    viewIdPrimitiveOutputMask := viewIdPrimitiveOutputMask
    numThreads := numThreads
    groupSharedBytesUsed := readU32 record 28
    groupSharedBytesDependentOnViewId := readU32 record 32
    payloadSizeInBytes := readU32 record 36
    maxOutputVertices := readU16 record 40
    maxOutputPrimitives := readU16 record 42
    meshOutputTopology := byteAt record 44 }

/-- An amplification shader's record. -/
def parseASInfo : Option RdatShaderInfo := do
  let numThreads ← info.readRdatNumThreads (readU32 record 0)
  some { shader with
    numThreads := numThreads
    groupSharedBytesUsed := readU32 record 4
    payloadSizeInBytes := readU32 record 8 }

end ShaderInfo

/-- A record of one of the tables of shaders. -/
def parseShaderInfo (info : RuntimeDataInfo) (tableType : Word) (minimumRecordSize : Nat)
    (table : RuntimeDataPartInfo) (i : Nat) : Option RdatShaderInfo :=
  let record := table.record i minimumRecordSize
  let shader : RdatShaderInfo := { tableType := tableType, recordIndex := BitVec.ofNat 32 i }
  if tableType = Rdat.vsInfoTable then parseVSInfo info record shader
  else if tableType = Rdat.psInfoTable then parsePSInfo info record shader
  else if tableType = Rdat.hsInfoTable then parseHSInfo info record shader
  else if tableType = Rdat.dsInfoTable then parseDSInfo info record shader
  else if tableType = Rdat.gsInfoTable then parseGSInfo info record shader
  else if tableType = Rdat.csInfoTable then parseCSInfo info record shader
  else if tableType = Rdat.msInfoTable then parseMSInfo info record shader
  else if tableType = Rdat.asInfoTable then parseASInfo info record shader
  else none

/-- The records of one table are appended to those of the tables before. -/
def parseRuntimeDataShaderInfoTable (info : RuntimeDataInfo) (tableType : Word)
    (minimumRecordSize : Nat) :
    Option RuntimeDataInfo := do
  let shaderInfos ← parseTable info tableType minimumRecordSize []
    (parseShaderInfo info tableType minimumRecordSize)
  some { info with shaderInfos := info.shaderInfos ++ shaderInfos }

/-- The tables of shaders, with the bytes of their records. -/
def shaderInfoTables : List (Word × Nat) :=
  [(Rdat.vsInfoTable, kRdatVSInfoRecordSize), (Rdat.psInfoTable, kRdatPSInfoRecordSize),
    (Rdat.hsInfoTable, kRdatHSInfoRecordSize), (Rdat.dsInfoTable, kRdatDSInfoRecordSize),
    (Rdat.gsInfoTable, kRdatGSInfoRecordSize), (Rdat.csInfoTable, kRdatCSInfoRecordSize),
    (Rdat.msInfoTable, kRdatMSInfoRecordSize), (Rdat.asInfoTable, kRdatASInfoRecordSize)]

/-- `ParseRuntimeDataShaderInfoTables`. -/
def parseRuntimeDataShaderInfoTables (info : RuntimeDataInfo) : Option RuntimeDataInfo :=
  shaderInfoTables.foldlM (fun info table => parseRuntimeDataShaderInfoTable info table.1 table.2)
    { info with shaderInfos := [] }

/-! ## Debug information -/

/-- A record of a source file. -/
def parsePdbSource (info : RuntimeDataInfo) (table : RuntimeDataPartInfo) (i : Nat) :
    Option RdatPdbInfoSource := do
  let record := table.record i kRdatPdbInfoSourceRecordSize
  let name ← info.readNullableRdatString (readU32 record 0)
  let content ← info.readNullableRdatString (readU32 record 4)
  some { name := name, content := content }

/-- `ParseRuntimeDataPdbSourceTable`. -/
def parseRuntimeDataPdbSourceTable (info : RuntimeDataInfo) : Option RuntimeDataInfo := do
  let pdbSources ← parseTable info Rdat.dxilPdbInfoSourceTable kRdatPdbInfoSourceRecordSize []
    (parsePdbSource info)
  some { info with pdbSources := pdbSources }

/-- A record of a library. -/
def parsePdbLibrary (info : RuntimeDataInfo) (table : RuntimeDataPartInfo) (i : Nat) :
    Option RdatPdbInfoLibrary := do
  let record := table.record i kRdatPdbInfoLibraryRecordSize
  let name ← info.readNullableRdatString (readU32 record 0)
  let data ← info.readNullableRdatBytes (readU32 record 4) (readU32 record 8)
  some { name := name, data := data }

/-- `ParseRuntimeDataPdbLibraryTable`. -/
def parseRuntimeDataPdbLibraryTable (info : RuntimeDataInfo) : Option RuntimeDataInfo := do
  let pdbLibraries ← parseTable info Rdat.dxilPdbInfoLibraryTable kRdatPdbInfoLibraryRecordSize []
    (parsePdbLibrary info)
  some { info with pdbLibraries := pdbLibraries }

/-- The record of what the shader was compiled from. -/
def parsePdbInfo (info : RuntimeDataInfo) (table : RuntimeDataPartInfo) (i : Nat) :
    Option RdatPdbInfo := do
  let record := table.record i kRdatPdbInfoRecordSize
  let sourceIndices ← info.readNullableRdatRecordArray (readU32 record 0) info.pdbSources.length
  let libraryIndices ← info.readNullableRdatRecordArray (readU32 record 4) info.pdbLibraries.length
  let argPairs ← info.readNullableRdatStringArray (readU32 record 8)
  let hash ← info.readNullableRdatBytes (readU32 record 12) (readU32 record 16)
  let pdbName ← info.readNullableRdatString (readU32 record 20)
  let customToolchainData ← info.readNullableRdatBytes (readU32 record 28) (readU32 record 32)
  let wholeDxil ← info.readNullableRdatBytes (readU32 record 36) (readU32 record 40)
  some {
    sourceIndices := sourceIndices
    libraryIndices := libraryIndices
    argPairs := argPairs
    hash := hash
    pdbName := pdbName
    customToolchainId := readU32 record 24
    customToolchainData := customToolchainData
    wholeDxil := wholeDxil }

/-- `ParseRuntimeDataPdbInfoTable`. -/
def parseRuntimeDataPdbInfoTable (info : RuntimeDataInfo) : Option RuntimeDataInfo := do
  let pdbInfos ← parseTable info Rdat.dxilPdbInfoTable kRdatPdbInfoRecordSize [] (parsePdbInfo info)
  some { info with pdbInfos := pdbInfos }

/-- `ParseRuntimeDataPdbInfoTables`: the files and libraries before what refers to them. -/
def parseRuntimeDataPdbInfoTables (info : RuntimeDataInfo) : Option RuntimeDataInfo := do
  let info ← parseRuntimeDataPdbSourceTable info
  let info ← parseRuntimeDataPdbLibraryTable info
  parseRuntimeDataPdbInfoTable info

/-! ## The blob -/

/-- The tables in an order in which what a record refers to has been read. -/
def parseRuntimeDataCoreTables (info : RuntimeDataInfo) : Option RuntimeDataInfo := do
  let info ← parseRuntimeDataResourceTable info
  let info ← parseRuntimeDataSubobjectTable info
  let info ← parseRuntimeDataNodeIdTable info
  let info ← parseRuntimeDataNodeShaderFuncAttribTable info
  let info ← parseRuntimeDataNodeShaderIoAttribTable info
  let info ← parseRuntimeDataIoNodeTable info
  let info ← parseRuntimeDataNodeShaderInfoTable info
  let info ← parseRuntimeDataSignatureElementTable info
  let info ← parseRuntimeDataShaderInfoTables info
  let info ← parseRuntimeDataFunctionTable info
  parseRuntimeDataPdbInfoTables info

/-- The header of a table, at the beginning of its part. -/
def parseTableHeader (part : RuntimeDataPartInfo) : Option RuntimeDataPartInfo :=
  if part.data.length < kRuntimeDataTableHeaderSize then none
  else
    let recordCount := readU32 part.data 0
    let recordStride := readU32 part.data 4
    if recordStride &&& 3 ≠ 0 then none
    else do
      let tableDataEnd ← checkedEnd kRuntimeDataTableHeaderSize
        (recordCount.toNat * recordStride.toNat)
        part.data.length
      some { part with
        recordCount := recordCount
        recordStride := recordStride
        tableData := subspan part.data kRuntimeDataTableHeaderSize
          (tableDataEnd - kRuntimeDataTableHeaderSize) }

/-- A part, at its offset in the table of offsets. -/
def parsePart (data : List Byte) (offsetTableEnd i : Nat) : Option RuntimeDataPartInfo :=
  let partOffset := readU32 data (kRuntimeDataHeaderSize + i * 4)
  if partOffset &&& 3 ≠ 0 ∨ partOffset.toNat < offsetTableEnd ∨
      partOffset.toNat > data.length then none
  else do
    let partHeaderEnd ← checkedEnd partOffset.toNat kRuntimeDataPartHeaderSize data.length
    let type := readU32 data partOffset.toNat
    let size := readU32 data (partOffset.toNat + 4)
    let _ ← checkedEnd partHeaderEnd (align size.toNat 4) data.length
    let part : RuntimeDataPartInfo := {
      type := type
      size := size
      data := subspan data partHeaderEnd size.toNat
      isTable := isRdatTablePart type }
    if type = Rdat.indexArrays ∧ size &&& 3 ≠ 0 then none
    else if part.isTable then parseTableHeader part
    else some part

/-- `ParseRuntimeData`. -/
def parseRuntimeData (data : List Byte) : Option RuntimeDataInfo :=
  if data.length < kRuntimeDataHeaderSize then none
  else do
    let version := readU32 data 0
    let partCount := readU32 data 4
    let offsetTableEnd ← checkedEnd kRuntimeDataHeaderSize (partCount.toNat * 4) data.length
    let parts ← readRecords (parsePart data offsetTableEnd) partCount.toNat
    parseRuntimeDataCoreTables { version := version, partCount := partCount, parts := parts }

end RuntimeData

end Dxmt
