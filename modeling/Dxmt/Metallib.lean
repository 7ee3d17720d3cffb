import Dxmt.ByteFormat

/-!
# Metal libraries

`MetallibWriter::Write` writes the functions of a module into a file. Each function has an entry of
tags in a list, and two records of metadata in sections of their own, at offsets that its entry
holds. The bitcode of the module is behind them, and a header says where all of this is.

The bitcode is what LLVM writes for the module, and its hash is a parameter. Stream positions are
`uint64_t`.
-/

namespace Dxmt

namespace Metallib

open ByteFormat

/-- `std::string`, as its bytes. -/
abbrev Text := List Byte

/-- The bytes of a name. -/
def text (literal : String) : Text :=
  literal.toList.map fun c => BitVec.ofNat 8 c.toNat

/-! ## Tags -/

/-- `MTLB_FOURCC`. -/
def mtlbFourCC (ch0 ch1 ch2 ch3 : Char) : List Byte :=
  [ch0, ch1, ch2, ch3].map fun ch => BitVec.ofNat 8 ch.toNat

namespace MTLBFourCC

/-- The tag of a function's name. -/
def name : List Byte := mtlbFourCC 'N' 'A' 'M' 'E'

/-- The tag of a function's type. -/
def type : List Byte := mtlbFourCC 'T' 'Y' 'P' 'E'

/-- The tag of the offsets into the other sections. -/
def offset : List Byte := mtlbFourCC 'O' 'F' 'F' 'T'

/-- The tag of the hash of a function's bitcode. -/
def hash : List Byte := mtlbFourCC 'H' 'A' 'S' 'H'

/-- The tag of the size of a function's bitcode. -/
def size : List Byte := mtlbFourCC 'M' 'D' 'S' 'Z'

/-- The tag of a function's versions. -/
def version : List Byte := mtlbFourCC 'V' 'E' 'R' 'S'

/-- The tag of a function's patch. -/
def tess : List Byte := mtlbFourCC 'T' 'E' 'S' 'S'

/-- The end of a list of tags. -/
def endTag : List Byte := mtlbFourCC 'E' 'N' 'D' 'T'

/-- The tag of the attributes of a vertex function. -/
def vertexAttribute : List Byte := mtlbFourCC 'V' 'A' 'T' 'T'

/-- The tag of their types. -/
def vertexAttributeType : List Byte := mtlbFourCC 'V' 'A' 'T' 'Y'

end MTLBFourCC

/-- `MTLB`. -/
def mtlbMagic : Nat := 0x424c544d

/-- The functions that a library has. -/
inductive FunctionType where
  | vertex
  | fragment
  | kernel
  | mesh
  | object
deriving DecidableEq

/-- `FunctionType` as it is written. -/
def FunctionType.code : FunctionType → Nat
  | .vertex => 0x00
  | .fragment => 0x01
  | .kernel => 0x02
  | .mesh => 0x07
  | .object => 0x08

/-! The tags as they lie in memory, each with its size. -/

/-- The tag of a function's type. -/
def typeTag (type : FunctionType) : List Byte :=
  MTLBFourCC.type ++ littleEndian 2 1 ++ littleEndian 1 type.code

/-- The tag of the hash of a function's bitcode. -/
def hashTag (hash : List Byte) : List Byte :=
  MTLBFourCC.hash ++ littleEndian 2 0x20 ++ hash

/-- The tag of the size of a function's bitcode. -/
def mdszTag (bitcodeSize : Nat) : List Byte :=
  MTLBFourCC.size ++ littleEndian 2 0x08 ++ littleEndian 8 bitcodeSize

/-- The tag of the offsets of a function into the other sections. -/
def offtTag (publicMetadataOffset privateMetadataOffset bitcodeOffset : Nat) : List Byte :=
  MTLBFourCC.offset ++ littleEndian 2 0x18 ++ (littleEndian 8 publicMetadataOffset ++
    littleEndian 8 privateMetadataOffset ++ littleEndian 8 bitcodeOffset)

/-- The tag of the versions of AIR and of the language. -/
def versTag (airVersionMajor airVersionMinor languageVersionMajor languageVersionMinor : Nat) :
    List Byte :=
  MTLBFourCC.version ++ littleEndian 2 0x08 ++ (littleEndian 2 airVersionMajor ++
    littleEndian 2 airVersionMinor ++ littleEndian 2 languageVersionMajor ++
      littleEndian 2 languageVersionMinor)

/-- Two bits of the type of a patch, and six of the number of its control points. -/
def tessTag (patchType controlPointCount : Nat) : List Byte :=
  MTLBFourCC.tess ++ littleEndian 2 1 ++ littleEndian 1 (patchType % 4 +
    4 * (controlPointCount % 64))

/-- Five bits, two of usage and one that is set in an active attribute. -/
def vaty (attributeIndex : Byte) (usage active : Nat) : List Byte :=
  attributeIndex :: littleEndian 1 (32 * (usage % 4) + 128 * (active % 2))

/-! ## Modules -/

/-- The types that the signature of a vertex function gives to attributes. -/
inductive AttributeType where
  | float4
  | uint4
  | int4
deriving DecidableEq

/-- The name of the type in the metadata. -/
def AttributeType.typeName : AttributeType → Text
  | .float4 => text "float4"
  | .uint4 => text "uint4"
  | .int4 => text "int4"

/-- An input of a vertex function. Only an attribute has the fields behind its kind. -/
structure InputElement where
  inputKind : Text
  location : Word
  type : AttributeType
  argName : Text

/-- A function of a module. -/
structure Function where
  name : Text
  name_lt : name.length < 65535

/-- A vertex function, with its inputs. The fourth operand may be a tuple, of strings and of others.
-/
structure VertexFunction extends Function where
  inputs : List InputElement
  patchTuple : Option (List (Option Text))

/-- The functions of a module by their stage, and its bitcode. -/
structure Module where
  vertexFns : List VertexFunction
  fragmentFns : List Function
  kernelFns : List Function
  objectFns : List Function
  meshFns : List Function
  bitcode : List Byte
  bitcode_lt : bitcode.length < 2 ^ 63

/-- The hash of the bitcode. -/
abbrev Sha256Hash := { hash : List Byte // hash.length = 32 }

/-! ## The writer -/

/-- What is written to the streams. -/
structure Streams where
  functionDef : List Byte := []
  publicMetadata : List Byte := []
  privateMetadata : List Byte := []
  fnCount : Nat := 0

/-- An attribute of a vertex function, as it is written. -/
structure InputAttribute where
  attributeIndex : Byte
  name : Text
  type : Byte

/-- The attribute of a vertex input. A type with another name is not written as one. -/
def InputElement.inputAttribute (input : InputElement) : InputAttribute where
  attributeIndex := input.location.setWidth 8
  name := input.argName
  type :=
    if input.type.typeName = text "float4" then 0x06
    else if input.type.typeName = text "uint4" then 0x24
    else 0x20

/-- The attributes among the inputs. -/
def vertexInputs (inputs : List InputElement) : List InputElement :=
  inputs.filter fun input => input.inputKind = text "air.vertex_input"

/-- The tag of a patch, where the operand is one. -/
def writePatch (patchTuple : Option (List (Option Text))) : List Byte :=
  match patchTuple with
  | some [some airPatch, some airPatchValue, _, _] =>
    if airPatch = text "air.patch" then
      if airPatchValue = text "triangle" then tessTag 1 0 else tessTag 2 0
    else []
  | _ => []

/-- Overwrites two bytes. -/
def patchU16 (data : List Byte) (offset value : Nat) : List Byte :=
  data.take offset ++ littleEndian 2 value ++ data.drop (offset + 2)

/-- The public metadata of a vertex function. The size of the attributes is known when they are
written. -/
def vertexPublicMetadata (attributes : List InputAttribute) : List Byte :=
  if attributes.length ≠ 0 then
    let stream := MTLBFourCC.vertexAttribute
    let lenOffset := stream.length
    let stream := stream ++ littleEndian 2 0 ++ littleEndian 2 attributes.length
    let stream := stream ++ attributes.flatMap fun vattr => vattr.name ++ [0] ++
        vaty vattr.attributeIndex 0 1
    let vattWritten := stream.length - lenOffset
    let stream := patchU16 stream lenOffset (vattWritten - 2)
    let stream := stream ++ MTLBFourCC.vertexAttributeType ++
      littleEndian 2 (2 + attributes.length) ++
      littleEndian 2 attributes.length
    stream ++ attributes.map (·.type) ++ MTLBFourCC.endTag
  else MTLBFourCC.endTag

section Write

variable (hash : Sha256Hash) (bitcodeSize : Nat)

/-- What the five loops write alike: the entry of a function and its private metadata. -/
def writeEntry (s : Streams) (type : FunctionType) (name : Text)
    (patch fnPublicMetadata : List Byte) :
    Streams where
  functionDef := s.functionDef ++ (MTLBFourCC.name ++ littleEndian 2 (name.length + 1) ++
    (name ++ [0]) ++
    typeTag type ++ hashTag hash ++ mdszTag bitcodeSize ++
    offtTag s.publicMetadata.length s.privateMetadata.length 0 ++ versTag 2 6 3 1 ++ patch ++
    MTLBFourCC.endTag)
  publicMetadata := s.publicMetadata ++
    (littleEndian 4 fnPublicMetadata.length ++ fnPublicMetadata)
  privateMetadata := s.privateMetadata ++ (littleEndian 4 4 ++ MTLBFourCC.endTag)
  fnCount := s.fnCount + 1

/-- A vertex function, with its patch and the attributes that it reads. -/
def writeVertexFunction (s : Streams) (fn : VertexFunction) : Streams :=
  writeEntry hash bitcodeSize s .vertex fn.name (writePatch fn.patchTuple)
    (vertexPublicMetadata ((vertexInputs fn.inputs).map (·.inputAttribute)))

/-- A fragment function. -/
def writeFragmentFunction (s : Streams) (fn : Function) : Streams :=
  writeEntry hash bitcodeSize s .fragment fn.name [] MTLBFourCC.endTag

/-- A kernel. -/
def writeKernelFunction (s : Streams) (fn : Function) : Streams :=
  writeEntry hash bitcodeSize s .kernel fn.name [] MTLBFourCC.endTag

/-- An object function. -/
def writeObjectFunction (s : Streams) (fn : Function) : Streams :=
  writeEntry hash bitcodeSize s .object fn.name [] MTLBFourCC.endTag

/-- A mesh function. -/
def writeMeshFunction (s : Streams) (fn : Function) : Streams :=
  writeEntry hash bitcodeSize s .mesh fn.name [] MTLBFourCC.endTag

end Write

/-- The header, in the order of its fields in memory. -/
structure MTLBHeader where
  magic : Nat
  platform : Nat
  versionMajor : Nat
  versionMinor : Nat
  type : Nat
  os : Nat
  osVersionMajor : Nat
  osVersionMinor : Nat
  fileSize : Nat
  functionListOffset : Nat
  functionListSize : Nat
  publicMetadataOffset : Nat
  publicMetadataSize : Nat
  privateMetadataOffset : Nat
  privateMetadataSize : Nat
  bitcodeOffset : Nat
  bitcodeSize : Nat

/-- The bytes of each field of the header. -/
def MTLBHeader.widths : List Nat :=
  [4, 2, 2, 2, 1, 1, 2, 2, 8, 8, 8, 8, 8, 8, 8, 8, 8]

/-- The fields of the header in order. -/
def MTLBHeader.values (header : MTLBHeader) : List Nat :=
  [header.magic, header.platform, header.versionMajor, header.versionMinor, header.type, header.os,
    header.osVersionMajor, header.osVersionMinor, header.fileSize, header.functionListOffset,
    header.functionListSize, header.publicMetadataOffset, header.publicMetadataSize,
    header.privateMetadataOffset, header.privateMetadataSize, header.bitcodeOffset,
    header.bitcodeSize]

/-- Bytes of the header. -/
def sizeofMTLBHeader : Nat := 88

/-- The header before the four sections. -/
def makeHeader (s : Streams) (bitcodeSize : Nat) : MTLBHeader :=
  let functionListOffset := sizeofMTLBHeader
  let functionListSize := s.functionDef.length + 4
  let publicMetadataOffset := functionListOffset + functionListSize + 4 + 4
  let privateMetadataOffset := publicMetadataOffset + s.publicMetadata.length
  { magic := mtlbMagic
    platform := 0x8001
    versionMajor := 2
    versionMinor := 7
    type := 0x00
    os := 0x81
    osVersionMajor := 14
    osVersionMinor := 4
    fileSize := sizeofMTLBHeader + 4 + 4 + s.functionDef.length + 4 + s.publicMetadata.length +
      s.privateMetadata.length + bitcodeSize
    functionListOffset := functionListOffset
    functionListSize := functionListSize
    publicMetadataOffset := publicMetadataOffset
    publicMetadataSize := s.publicMetadata.length
    privateMetadataOffset := privateMetadataOffset
    privateMetadataSize := s.privateMetadata.length
    bitcodeOffset := privateMetadataOffset + s.privateMetadata.length
    bitcodeSize := bitcodeSize }

section

variable (computeSha256Hash : List Byte → Sha256Hash)

/-- The loops over the functions of each stage. -/
def writeFunctions (m : Module) : Streams :=
  let hash := computeSha256Hash m.bitcode
  let s := m.vertexFns.foldl (writeVertexFunction hash m.bitcode.length) {}
  let s := m.fragmentFns.foldl (writeFragmentFunction hash m.bitcode.length) s
  let s := m.kernelFns.foldl (writeKernelFunction hash m.bitcode.length) s
  let s := m.objectFns.foldl (writeObjectFunction hash m.bitcode.length) s
  m.meshFns.foldl (writeMeshFunction hash m.bitcode.length) s

/-- The header, the functions behind their number and one size, an empty extended header, the
metadata and the bitcode. -/
def write (m : Module) : List Byte :=
  let s := writeFunctions computeSha256Hash m
  let header := makeHeader s m.bitcode.length
  encodeFields MTLBHeader.widths header.values ++
    (littleEndian 4 s.fnCount ++ (littleEndian 4 header.functionListSize ++ (s.functionDef ++
      (MTLBFourCC.endTag ++ (s.publicMetadata ++ (s.privateMetadata ++ m.bitcode))))))

end

/-! ## The reader -/

/-- A tag and what is behind its size. -/
abbrev Tag := List Byte × List Byte

/-- Tags up to the last one. -/
def tags : Format (List Tag) :=
  tagged MTLBFourCC.endTag (by decide) (block 2)

/-- An entry of the function list: its size, which counts its own four bytes, and its tags. -/
def entry : Format (List Tag) :=
  sized tags 4 4

/-- A record of metadata: its size, which does not, and its tags. -/
def metadata : Format (List Tag) :=
  sized tags 4 0

/-- The attributes of a vertex function: a name, the index of the attribute and its flags. -/
def vertexAttributes : Format (List (Text × Nat × Nat)) :=
  counted (pair zeroTerminated (pair (word 1) (word 1))) 2

/-- The types of attributes: their number, and a byte for each. -/
def vertexAttributeTypes : Format (List Nat) :=
  counted (word 1) 2

/-- A header of its fields. -/
def MTLBHeader.ofValues : List Nat → Option MTLBHeader
  | [magic, platform, versionMajor, versionMinor, type, os, osVersionMajor, osVersionMinor,
      fileSize, functionListOffset, functionListSize, publicMetadataOffset, publicMetadataSize,
      privateMetadataOffset, privateMetadataSize, bitcodeOffset, bitcodeSize] =>
    some ⟨magic, platform, versionMajor, versionMinor, type, os, osVersionMajor, osVersionMinor,
      fileSize, functionListOffset, functionListSize, publicMetadataOffset, publicMetadataSize,
      privateMetadataOffset, privateMetadataSize, bitcodeOffset, bitcodeSize⟩
  | _ => none

/-- The bytes of a section, all of which must be there. -/
def slice (bytes : List Byte) (offset size : Nat) : Option (List Byte) :=
  if offset + size ≤ bytes.length then some ((bytes.drop offset).take size) else none

/-- What is read of a file. -/
structure File where
  functions : List (List Tag)
  publicMetadata : List Byte
  privateMetadata : List Byte
  bitcode : List Byte

/-- The entries of the function list fill it behind their number, and the extended header is behind
it. -/
def readFile (bytes : List Byte) : Option File :=
  (readFields MTLBHeader.widths bytes).bind fun read =>
    (MTLBHeader.ofValues read.1).bind fun header =>
      if header.magic ≠ mtlbMagic ∨ header.fileSize ≠ bytes.length then none
      else
        (slice bytes header.functionListOffset (4 + header.functionListSize)).bind fun list =>
        (readWord 4 list).bind fun count =>
        ((many entry count.1).whole count.2).bind fun functions =>
        let extended := bytes.drop (header.functionListOffset + 4 + header.functionListSize)
        (tags.read extended).bind fun _ =>
        (slice bytes header.publicMetadataOffset header.publicMetadataSize).bind fun pubData =>
        (slice bytes header.privateMetadataOffset header.privateMetadataSize).bind fun privData =>
        (slice bytes header.bitcodeOffset header.bitcodeSize).map fun bitcode =>
          { functions := functions
            publicMetadata := pubData
            privateMetadata := privData
            bitcode := bitcode }

/-- What stands behind the first tag of a kind. -/
def findTag (tag : List Byte) (tags : List Tag) : Option (List Byte) :=
  (tags.find? fun other => other.1 = tag).map (·.2)

/-- The offsets of an entry, of its public and private metadata and of its bitcode. -/
def readOffsets (tags : List Tag) : Option (List Nat) :=
  (findTag MTLBFourCC.offset tags).bind (fields [8, 8, 8]).whole

/-- The record at an offset of a section. -/
def readMetadata (bytes : List Byte) (offset : Nat) : Option (List Tag) :=
  (metadata.read (bytes.drop offset)).map (·.1)

/-! ## What a module means -/

/-- An attribute, with the code of its type. -/
structure Attribute where
  name : Text
  location : Nat
  type : Nat
deriving DecidableEq

/-- The type as a reader of the library takes it. -/
def AttributeType.code : AttributeType → Nat
  | .float4 => 0x06
  | .uint4 => 0x24
  | .int4 => 0x20

/-- The attributes that are in public metadata. -/
def readAttributes (metadata : List Tag) : Option (List Attribute) :=
  match findTag MTLBFourCC.vertexAttribute metadata,
      findTag MTLBFourCC.vertexAttributeType metadata with
  | none, none => some []
  | some names, some types =>
    (vertexAttributes.whole names).bind fun names =>
      (vertexAttributeTypes.whole types).bind fun types =>
        if names.length = types.length then
          some (List.zipWith (fun name type => ⟨name.1, name.2.1, type⟩) names types)
        else none
  | _, _ => none

/-- A function as a file describes it. -/
structure FunctionRecord where
  name : Text
  type : FunctionType
  patchType : Option Nat
  attributes : List Attribute

/-- The type of a patch: of triangles or of quads. -/
def patchTypeOf (patchTuple : Option (List (Option Text))) : Option Nat :=
  match patchTuple with
  | some [some airPatch, some airPatchValue, _, _] =>
    if airPatch = text "air.patch" then some (if airPatchValue = text "triangle" then 1 else 2)
    else none
  | _ => none

/-- What a reader finds of a vertex input. -/
def InputElement.record (input : InputElement) : Attribute where
  name := input.argName
  location := input.location.toNat
  type := input.type.code

/-- What a reader finds of a vertex function. -/
def VertexFunction.record (fn : VertexFunction) : FunctionRecord where
  name := fn.name
  type := .vertex
  patchType := patchTypeOf fn.patchTuple
  attributes := (vertexInputs fn.inputs).map (·.record)

/-- What a reader finds of another function. -/
def Function.record (type : FunctionType) (fn : Function) : FunctionRecord where
  name := fn.name
  type := type
  patchType := none
  attributes := []

/-- The functions of a module, stage by stage. -/
def Module.functions (m : Module) : List FunctionRecord :=
  m.vertexFns.map (·.record) ++ m.fragmentFns.map (·.record .fragment) ++
    m.kernelFns.map (·.record .kernel) ++
    m.objectFns.map (·.record .object) ++ m.meshFns.map (·.record .mesh)

/-- The tag of a patch. -/
def patchTags : Option Nat → List Tag
  | none => []
  | some patchType => [(MTLBFourCC.tess, littleEndian 1 patchType)]

/-- The tags of a function: its name with a zero, type, hash, the size of the bitcode, offsets,
versions, and the type of a patch. -/
def FunctionRecord.tags (function : FunctionRecord) (hash : List Byte) (bitcodeSize : Nat)
    (offsets : List Nat) : List Tag :=
  [(MTLBFourCC.name, function.name ++ [0]), (MTLBFourCC.type, littleEndian 1 function.type.code),
    (MTLBFourCC.hash, hash), (MTLBFourCC.size, littleEndian 8 bitcodeSize),
    (MTLBFourCC.offset, encodeFields [8, 8, 8] offsets),
    (MTLBFourCC.version, encodeFields [2, 2, 2, 2] [2, 6, 3, 1])] ++ patchTags function.patchType

/-- The entry of a function has its tags, and its offsets lead to its metadata. -/
def FunctionRecord.ReadFrom (file : File) (hash : List Byte) (function : FunctionRecord)
    (entry : List Tag) :
    Prop :=
  ∃ publicOffset privateOffset,
    readOffsets entry = some [publicOffset, privateOffset, 0] ∧
    entry = function.tags hash file.bitcode.length [publicOffset, privateOffset, 0] ∧
    (readMetadata file.publicMetadata publicOffset).bind readAttributes = some function.attributes ∧
    readMetadata file.privateMetadata privateOffset = some []

/-- The file reads back as the functions of the module and its bitcode. -/
def ReadsBack (computeSha256Hash : List Byte → Sha256Hash) (m : Module) : Prop :=
  ∃ file, readFile (write computeSha256Hash m) = some file ∧ file.bitcode = m.bitcode ∧
    List.Forall₂ (FunctionRecord.ReadFrom file (computeSha256Hash m.bitcode).1) m.functions
      file.functions

/-- The attributes fit: no zero is in a name, a location has eight bits, and the size of all has
sixteen. -/
def FunctionRecord.AttributesFit (function : FunctionRecord) : Prop :=
  (∀ vattr ∈ function.attributes, 0 ∉ vattr.name ∧ vattr.location < 256) ∧
    2 + (function.attributes.map fun vattr => vattr.name.length + 3).sum < 65536

end Metallib

end Dxmt
