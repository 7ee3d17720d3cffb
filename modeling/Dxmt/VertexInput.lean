import Dxmt.ByteWords
import Dxmt.OperandMask
import Mathlib.Data.List.Basic
import Mathlib.Logic.Function.Basic

/-!
# Vertex inputs: `BuildInputElements`, `pull_vertex_input`

`BuildInputElements` lowers the input layout to a list of elements, for a DXIL shader in the order
of its signature. The compiler gives the inputs of a DXIL shader these elements by a counter, and
those of a DXBC shader by register. The emitted code finds the vertex buffer of an element by a
population count in a table that `encodeVertexBuffers` fills at the draw.

Texts are lists of characters. The table of formats and the lookup of a virtual address are
parameters.

Result: `vertex_input_contract`. A read gets the element that D3D assigns to it when the counter and
the registers agree with the layout, the slot has its buffer, and the index and the offset come out
exactly.

Source: `d3d12_pipeline.cpp:1237-1350`, `dxil_air_converter.cpp:1145-1215, 2120-2142`,
`dxbc_converter_basicblock.cpp:375-445`, `dxbc_signature.cpp:106-135`, `dxmt_context.cpp:147-188`,
`d3d12_command_queue.cpp:4725-4761`.
-/

namespace Dxmt

namespace VertexInput

/-! ## The input layout -/

/-- `MTL_DXGI_FORMAT_DESC`, with the sizes that the table has. -/
structure FormatDesc where
  attributeFormat : Nat
  bytesPerTexel : Nat
  sizes : bytesPerTexel ∈ [0, 1, 2, 4, 8, 12, 16]

/-- `D3D12_INPUT_CLASSIFICATION`. -/
inductive InputClassification
  | perVertexData
  | perInstanceData
  deriving DecidableEq

/-- `D3D12_INPUT_ELEMENT_DESC`. -/
structure InputElementDesc where
  semanticName : List Char
  semanticIndex : Word
  format : Nat
  inputSlot : Nat
  alignedByteOffset : Word
  inputSlotClass : InputClassification
  instanceDataStepRate : Word

/-- `D3D12_APPEND_ALIGNED_ELEMENT`. -/
def appendAlignedElement : Word := 0xffffffff

/-- `SM50_IA_INPUT_ELEMENT`. -/
structure IAInputElement where
  reg : Nat
  slot : Nat
  alignedByteOffset : Word
  format : Nat
  stepFunction : Bool
  stepRate : BitVec 31

/-- `align` of `util_math.hpp`. -/
def align (what alignment : Word) : Word :=
  (what + alignment - 1) &&& ~~~(alignment - 1)

/-- The offset of an element in its slot, where the elements before it end at `appendOffset`. -/
def alignedByteOffset (input : InputElementDesc) (format : FormatDesc) (appendOffset : Word) :
    Word :=
  if input.alignedByteOffset = appendAlignedElement then
    align appendOffset (BitVec.ofNat 32 (min 4 format.bytesPerTexel))
  else input.alignedByteOffset

/-- The element of the layout that an input description becomes. -/
def layoutElement (input : InputElementDesc) (format : FormatDesc) (i : Nat) (offset : Word) :
    IAInputElement where
  reg := i
  slot := input.inputSlot
  alignedByteOffset := offset
  format := format.attributeFormat
  stepFunction := input.inputSlotClass = .perInstanceData
  stepRate := input.instanceDataStepRate.setWidth 31

/-- `MTLQueryDXGIFormat`, without the formats that have no attribute format. -/
abbrev FormatTable := Nat → Option FormatDesc

/-- The loop of `BuildInputElements` from element `i` on. -/
def layoutElements (formats : FormatTable) :
    List InputElementDesc → Nat → (Nat → Word) → Option (List IAInputElement)
  | [], _, _ => some []
  | input :: inputs, i, appendOffsets =>
    if 32 ≤ input.inputSlot then none
    else
      match formats input.format with
      | none => none
      | some format =>
        if format.bytesPerTexel = 0 then none
        else
          let offset := alignedByteOffset input format (appendOffsets input.inputSlot)
          (layoutElements formats inputs (i + 1) (Function.update appendOffsets input.inputSlot
            (offset + BitVec.ofNat 32 format.bytesPerTexel))).map
              (layoutElement input format i offset :: ·)

/-- The slots of the layout, as `BuildInputElements` and the draw collect them. -/
def slotMask (inputs : List InputElementDesc) : Word :=
  inputs.foldl (fun mask input => if input.inputSlot < 32 then mask ||| 1#32 <<< input.inputSlot
  else mask) 0

/-! ## Signatures -/

/-- The signatures of a shader. -/
inductive SignatureKind
  | input
  | output
  | patchConstant
  | primitive
  deriving DecidableEq

/-- `DxilTranslationSignatureElementInfo`. -/
structure SignatureElement where
  kind : SignatureKind
  elementId : Word
  semanticName : List Char
  semanticIndex : Word
  semanticKind : Nat
  startRow : Nat

namespace SignatureElement

/-- `NormalizeTranslationSignatureElement`: the name in capitals with the index. -/
def semanticKey (sig : SignatureElement) : List Char :=
  sig.semanticName.map Char.toUpper ++ Nat.toDigits 10 sig.semanticIndex.toNat

/-- `IsSystemGeneratedValue`: the element is filled by the system. -/
def isSystemGeneratedValue (sig : SignatureElement) : Bool :=
  sig.semanticKind ≠ 0 || sig.semanticKey = "SV_POSITION0".toList ||
    sig.semanticKey = "SV_TARGET0".toList || sig.semanticKey = "SV_DEPTH0".toList ||
    sig.semanticKey = "SV_COVERAGE0".toList

/-- The comparison of `equal_semantic` and of `IsSystemSemantic`. -/
def equalSemantic (lhs rhs : List Char) : Bool :=
  lhs.map Char.toLower = rhs.map Char.toLower

/-- The element's key or name is the semantic. -/
def isSystemSemantic (sig : SignatureElement) (name : List Char) : Bool :=
  equalSemantic sig.semanticKey name || equalSemantic sig.semanticName name

/-- The element is `SV_VertexID`. -/
def isVertexID (sig : SignatureElement) : Bool :=
  sig.isSystemSemantic "SV_VertexID".toList

/-- The element is `SV_InstanceID`. -/
def isInstanceID (sig : SignatureElement) : Bool :=
  sig.isSystemSemantic "SV_InstanceID".toList

/-- The predicate with which `BuildInputElements` searches the layout. -/
def matchesElement (sig : SignatureElement) (input : InputElementDesc) : Bool :=
  if sig.semanticName ≠ [] then
    input.semanticIndex = sig.semanticIndex && equalSemantic input.semanticName sig.semanticName
  else
    equalSemantic (input.semanticName ++ Nat.toDigits 10 input.semanticIndex.toNat) sig.semanticKey

/-- What the loop over the signature appends for an element. -/
def pushed (inputs : List InputElementDesc) (layout : List IAInputElement)
    (sig : SignatureElement) :
    Option IAInputElement :=
  if sig.kind ≠ .input || sig.isSystemGeneratedValue then none
  else
    match inputs.findIdx? sig.matchesElement with
    | none => none
    | some layoutIndex => layout[layoutIndex]?.map fun element =>
        { element with reg := sig.startRow }

end SignatureElement

/-- The signature of a DXIL shader: the inputs have names and element ids of their own. -/
structure DxilSignature where
  elements : List SignatureElement
  named : ∀ sig ∈ elements, sig.semanticName ≠ []
  ids : ((elements.filter (·.kind = .input)).map (·.elementId)).Nodup

/-- `D3D11_SIGNATURE_PARAMETER`. -/
structure SignatureParameter where
  semanticName : List Char
  semanticIndex : Word
  register : Nat
  mask : Airconv.Mask

/-- A vertex shader with its input signature. -/
inductive VertexShader
  | dxil (signature : DxilSignature)
  | dxbc (parameters : List SignatureParameter)

/-- `BuildInputElements`: the elements and the slot mask. -/
def buildInputElements (formats : FormatTable) (inputs : List InputElementDesc)
    (vs : VertexShader) :
    Option (List IAInputElement × Word) :=
  (layoutElements formats inputs 0 fun _ => 0).map fun layout =>
    (match vs with
      | .dxil signature =>
        let elements := signature.elements.filterMap (SignatureElement.pushed inputs layout)
        if elements.isEmpty then layout else elements
      | .dxbc _ => layout,
    slotMask inputs)

/-! ## The compiled shader -/

/-- What `BuildSignature` leaves in the context of the DXIL compiler for an input that is not read
from a vertex buffer. -/
inductive InputArgument
  | vertexID
  | instanceID
  | stageIn (location : Word)
  deriving DecidableEq

/-- What the DXIL front end reads an input from. -/
structure DxilAirContext where
  vertexInputs : Word → Option IAInputElement
  inputArgs : Word → Option InputArgument

/-- `BuildSignature` for a vertex shader, from `vertexInputIndex` on. -/
def buildSignature (elements : List IAInputElement) :
    List SignatureElement → Nat → DxilAirContext → DxilAirContext
  | [], _, ctx => ctx
  | sig :: rest, vertexInputIndex, ctx =>
    if sig.kind ≠ .input then buildSignature elements rest vertexInputIndex ctx
    else if sig.isVertexID then
      buildSignature elements rest vertexInputIndex
        { ctx with inputArgs := Function.update ctx.inputArgs sig.elementId (some .vertexID) }
    else if sig.isInstanceID then
      buildSignature elements rest vertexInputIndex
        { ctx with inputArgs := Function.update ctx.inputArgs sig.elementId (some .instanceID) }
    else
      match elements[vertexInputIndex]? with
      | some element =>
        buildSignature elements rest (vertexInputIndex + 1)
          { ctx with vertexInputs := Function.update ctx.vertexInputs sig.elementId (some element) }
      | none =>
        buildSignature elements rest vertexInputIndex
          { ctx with
            inputArgs := Function.update ctx.inputArgs sig.elementId
                (some (.stageIn sig.elementId)) }

/-- The arguments that Metal passes. The two ids include their bases. -/
structure VertexArguments where
  vertexId : Word
  baseVertex : Word
  instanceId : Word
  baseInstance : Word

/-- One entry of the vertex buffer table. -/
structure VertexBufferEntry where
  bufferHandle : Nat
  stride : Word
  length : Word

/-- What a read yields: a component of what is pulled from an address in a format, where no address
is a null binding, or something that does not come from a vertex buffer. -/
inductive InputValue
  | pulled (format : Nat) (address : Option Int) (component : Nat)
  | systemValue (value : Word)
  | stageIn (location : Word) (component : Nat)
  | undefined
  deriving DecidableEq

/-- `std::popcount`. -/
def popcount (x : Word) : Nat :=
  (List.range 32).countP (x.getLsbD ·)

/-- `pull_vec4_from_addr`: the byte offset is a signed index. -/
def pullVec4FromAddr (format : Nat) (baseAddr : Nat) (byteOffset : Word) (component : Nat) :
    InputValue :=
  .pulled format (if baseAddr = 0 then none else some (baseAddr + byteOffset.toInt)) component

/-- The row of the buffer that an element reads, for the vertex and the instance that the translated
code takes. -/
def elementIndex (element : IAInputElement) (vertex inst baseInstance : Word) : Word :=
  if element.stepFunction then
    if element.stepRate ≠ 0 then baseInstance + inst / element.stepRate.setWidth 32
    else baseInstance
  else vertex

/-- The fetch of a component: the entry's address, the stride times the index and the element's
offset. -/
def pullElement (table : Nat → VertexBufferEntry) (entry : Nat) (element : IAInputElement)
    (index : Word) (component : Nat) : InputValue :=
  pullVec4FromAddr element.format (table entry).bufferHandle
    ((table entry).stride * index + element.alignedByteOffset) component

/-- The entry of a slot, as `LoadSignatureInput` computes it. -/
def tableIndex (slotMask : Word) (slot : Nat) : Nat :=
  let shift := 32 - min slot 31
  if slot ≠ 0 then popcount ((slotMask <<< shift) >>> shift) else 0

/-- `LoadSignatureInput`. The row is not used. -/
def loadSignatureInput (ctx : DxilAirContext) (slotMask : Word) (table : Nat → VertexBufferEntry)
    (args : VertexArguments) (elementId _row : Word) (column : Nat) : InputValue :=
  match ctx.vertexInputs elementId with
  | some element =>
    pullElement table (tableIndex slotMask element.slot) element
      (elementIndex element args.vertexId args.instanceId args.baseInstance) column
  | none =>
    match ctx.inputArgs elementId with
    | none => .undefined
    | some .vertexID => .systemValue (args.vertexId - args.baseVertex)
    | some .instanceID => .systemValue (args.instanceId - args.baseInstance)
    | some (.stageIn location) => .stageIn location column

/-- The entry of a slot, as `pull_vertex_input` computes it. -/
def vertexBufferEntryIndex (slotMask : Word) (slot : Nat) : Nat :=
  let shift := 32 - slot
  if slot ≠ 0 then popcount ((slotMask <<< shift) >>> shift) else 0

/-- `pull_vertex_input`: the component of the register that the prologue stores. -/
def pullVertexInput (element : IAInputElement) (slotMask : Word) (table : Nat → VertexBufferEntry)
    (args : VertexArguments) (component : Nat) : InputValue :=
  pullElement table (vertexBufferEntryIndex slotMask element.slot) element
    (elementIndex element args.vertexId (args.instanceId - args.baseInstance) args.baseInstance)
      component

/-- `findInputElement`: by register and mask. -/
def findInputElement (parameters : List SignatureParameter) (register : Nat) (mask : Airconv.Mask) :
    Option SignatureParameter :=
  parameters.find? fun sig => sig.register = register && sig.mask &&& mask ≠ 0

/-- A component of an input register that `dcl_input` declares with the mask. -/
def readInputRegister (parameters : List SignatureParameter) (elements : List IAInputElement)
    (slotMask : Word) (table : Nat → VertexBufferEntry) (args : VertexArguments) (register : Nat)
    (mask : Airconv.Mask) (component : Nat) : InputValue :=
  if (findInputElement parameters register mask).isNone || !mask.getLsbD component then .undefined
  else
    match elements.find? (·.reg = register) with
    | none => .undefined
    | some element => pullVertexInput element slotMask table args component

/-- A read of an input by the shader. -/
inductive InputRead
  | loadInput (elementId row : Word) (column : Nat)
  | inputRegister (register : Nat) (mask : Airconv.Mask) (component : Nat)

/-- What the compiled shader reads. -/
def readInput (vs : VertexShader) (elements : List IAInputElement) (slotMask : Word)
    (table : Nat → VertexBufferEntry) (args : VertexArguments) : InputRead → InputValue
  | .loadInput elementId row column =>
    match vs with
    | .dxil signature =>
      loadSignatureInput (buildSignature elements signature.elements 0 ⟨fun _ => none, fun _ =>
        none⟩)
        slotMask table args elementId row column
    | .dxbc _ => .undefined
  | .inputRegister register mask component =>
    match vs with
    | .dxil _ => .undefined
    | .dxbc parameters =>
      readInputRegister parameters elements slotMask table args register mask component

/-! ## The draw -/

/-- A buffer at its place in the memory of the GPU. -/
structure BufferResource where
  gpuAddress : Nat
  length : Nat
  heapOffset : Nat
  placed : 0 < gpuAddress

/-- `D3D12_VERTEX_BUFFER_VIEW`. -/
structure VertexBufferView where
  bufferLocation : Nat
  strideInBytes : Word

/-- `LookupBufferResourceByGpuVirtualAddress`: the buffer and the offset in it. -/
abbrev AddressLookup := Nat → Option (BufferResource × Nat)

/-- An entry of `vbuf_`. -/
structure VertexBufferBinding where
  buffer : BufferResource
  offset : Word
  stride : Word

/-- The bound vertex buffers by slot. -/
abbrev BindingSlots := Nat → Option VertexBufferBinding

/-- `bindVertexBuffer`: the offset is an `unsigned`. -/
def bindVertexBuffer (vbuf : BindingSlots) (slot offset : Nat) (stride : Word)
    (buffer : BufferResource) :
    BindingSlots :=
  Function.update vbuf slot (some ⟨buffer, BitVec.ofNat 32 offset, stride⟩)

/-- One more than the highest slot of the mask. -/
def maxSlot (mask : Word) : Nat :=
  32 - mask.clz.toNat

/-- One turn of the loop of `EncodeVertexBuffers`. -/
def bindSlot (mask : Word) (views : Nat → Option VertexBufferView) (lookup : AddressLookup)
    (vbuf : BindingSlots) (slot : Nat) : BindingSlots :=
  if !mask.getLsbD slot then vbuf
  else
    match views slot with
    | none => vbuf
    | some view =>
      match lookup view.bufferLocation with
      | none => vbuf
      | some (resource, resourceOffset) =>
        bindVertexBuffer vbuf slot (resource.heapOffset +
          resourceOffset) view.strideInBytes resource

/-- The bindings that `EncodeVertexBuffers` leaves. -/
def bindVertexBuffers (mask : Word) (views : Nat → Option VertexBufferView) (lookup : AddressLookup)
    (vbuf : BindingSlots) : BindingSlots :=
  (List.range (maxSlot mask)).foldl (bindSlot mask views lookup) vbuf

/-- The entry that `encodeVertexBuffers` writes for a slot. -/
def bufferEntry : Option VertexBufferBinding → VertexBufferEntry
  | none => ⟨0, 0, 0⟩
  | some binding =>
    { bufferHandle := binding.buffer.gpuAddress + binding.offset.toNat
      stride := binding.stride
      length := BitVec.ofNat 32 (binding.buffer.length - binding.offset.toNat) }

/-- One turn of its loop over the slots, with the entries and the next index. -/
def encodeSlot (mask : Word) (vbuf : BindingSlots) (acc : (Nat → VertexBufferEntry) × Nat)
    (slot : Nat) :
    (Nat → VertexBufferEntry) × Nat :=
  if !mask.getLsbD slot then acc
  else (Function.update acc.1 acc.2 (bufferEntry (vbuf slot)), acc.2 + 1)

/-- `encodeVertexBuffers`: the table over what the argument buffer held. -/
def encodeVertexBuffers (mask : Word) (vbuf : BindingSlots) (entries : Nat → VertexBufferEntry) :
    Nat → VertexBufferEntry :=
  ((List.range (maxSlot mask)).foldl (encodeSlot mask vbuf) (entries, 0)).1

/-! ## What D3D assigns -/

/-- A draw, for one of its vertices: the number of the vertex with the base, the number of the
instance without it. -/
structure Draw where
  vertex : Word
  baseVertex : Word
  inst : Word
  startInstance : Word

/-- The arguments in Metal's terms. -/
def Draw.arguments (draw : Draw) : VertexArguments :=
  ⟨draw.vertex, draw.baseVertex, draw.startInstance + draw.inst, draw.startInstance⟩

/-- The offset of an element behind the end of the last one in its slot, as a number. -/
def assignedOffset (input : InputElementDesc) (format : FormatDesc) (last : Nat) : Nat :=
  if input.alignedByteOffset = appendAlignedElement then
    (last + min 4 format.bytesPerTexel - 1) / min 4 format.bytesPerTexel * min 4
      format.bytesPerTexel
  else input.alignedByteOffset.toNat

/-- An element of the layout, with its position and its offset. -/
structure AssignedElement where
  position : Nat
  input : InputElementDesc
  format : FormatDesc
  offset : Nat

/-- The elements of a layout from position `i` on, where the slots are filled up to `ends`. -/
def assignedElements (formats : FormatTable) :
    List InputElementDesc → Nat → (Nat → Nat) → List AssignedElement
  | [], _, _ => []
  | input :: inputs, i, ends =>
    match formats input.format with
    | none => []
    | some format =>
      let offset := assignedOffset input format (ends input.inputSlot)
      ⟨i, input, format, offset⟩ :: assignedElements formats inputs (i + 1)
        (Function.update ends input.inputSlot (offset + format.bytesPerTexel))

/-- The entry has this semantic name and semantic index. -/
def InputElementDesc.hasSemantic (name : List Char) (index : Nat) (input : InputElementDesc) :
    Bool :=
  SignatureElement.equalSemantic input.semanticName name && input.semanticIndex.toNat = index

/-- The input of a DXIL signature with this element id. -/
def DxilSignature.input (signature : DxilSignature) (elementId : Word) : Option SignatureElement :=
  signature.elements.find? fun sig => sig.kind = .input && sig.elementId = elementId

/-- The semantic name and the semantic index that a read is for. The vertex and the instance number
do not come from the layout. -/
def InputRead.semantic : VertexShader → InputRead → Option (List Char × Nat)
  | .dxil signature, .loadInput elementId row _ =>
    (signature.input elementId).bind fun sig =>
      if sig.isVertexID || sig.isInstanceID then none
      else some (sig.semanticName, sig.semanticIndex.toNat + row.toNat)
  | .dxbc parameters, .inputRegister register mask component =>
    if mask.getLsbD component then
      (findInputElement parameters register mask).map fun sig =>
        (sig.semanticName, sig.semanticIndex.toNat)
    else none
  | _, _ => none

/-- The component that the read asks for. -/
def InputRead.component : InputRead → Nat
  | .loadInput _ _ column => column
  | .inputRegister _ _ component => component

/-- The entry of the layout that D3D assigns to a read. -/
def assignedElement (formats : FormatTable) (inputs : List InputElementDesc) (vs : VertexShader)
    (read : InputRead) : Option AssignedElement :=
  (read.semantic vs).bind fun semantic =>
    (assignedElements formats inputs 0 fun _ => 0).find? fun a =>
      a.input.hasSemantic semantic.1 semantic.2

/-- What is bound to a slot at the draw: the buffer, the offset of the view in it and the stride. -/
def boundBuffer (views : Nat → Option VertexBufferView) (lookup : AddressLookup) (slot : Nat) :
    Option (BufferResource × Nat × Word) :=
  (views slot).bind fun view =>
    (lookup view.bufferLocation).map fun (resource, offset) =>
    (resource, offset, view.strideInBytes)

namespace AssignedElement

/-- The number of the element in its buffer. -/
def row (a : AssignedElement) (draw : Draw) : Nat :=
  match a.input.inputSlotClass with
  | .perVertexData => draw.vertex.toNat
  | .perInstanceData =>
    draw.startInstance.toNat + draw.inst.toNat / a.input.instanceDataStepRate.toNat

/-- The value that D3D gives a read of the element. -/
def value (a : AssignedElement) (views : Nat → Option VertexBufferView) (lookup : AddressLookup)
    (draw : Draw) (component : Nat) : InputValue :=
  .pulled a.format.attributeFormat
    ((boundBuffer views lookup a.input.inputSlot).map fun (resource, offset, stride) =>
      ↑(resource.gpuAddress + resource.heapOffset + offset + stride.toNat * a.row draw + a.offset))
    component

end AssignedElement

/-! ## When the code agrees -/

namespace SignatureElement

/-- `BuildSignature` gives the element an entry of the list, if one is left. -/
def takes (sig : SignatureElement) : Bool :=
  sig.kind = .input && !sig.isVertexID && !sig.isInstanceID

/-- `BuildInputElements` appends an entry for the element. -/
def brings (inputs : List InputElementDesc) (sig : SignatureElement) : Bool :=
  sig.kind = .input && !sig.isSystemGeneratedValue && inputs.any sig.matchesElement

end SignatureElement

/-- The read reaches the entry that is assigned to it. In a DXIL shader the row is the first one,
and as many of the inputs in front take an entry as bring one; a DXBC shader has the register at the
position of the entry. -/
def Reaches (inputs : List InputElementDesc) (a : AssignedElement) : VertexShader → InputRead → Prop
  | .dxil signature, .loadInput elementId row _ =>
    row = 0 ∧ ∃ before sig rest, signature.elements = before ++ sig :: rest ∧ sig.kind = .input ∧
      sig.elementId = elementId ∧ sig.isSystemGeneratedValue = false ∧
      before.countP (·.takes) = before.countP (·.brings inputs)
  | .dxbc _, .inputRegister register _ _ => a.position = register
  | _, _ => False

/-- The instance number that the translated shader divides. A DXIL shader has the base in it. -/
def steppedInstance (draw : Draw) : VertexShader → Word
  | .dxil _ => draw.startInstance + draw.inst
  | .dxbc _ => draw.inst

/-- The condition under which the read gets what is assigned to it. -/
structure Condition (inputs : List InputElementDesc) (vs : VertexShader) (read : InputRead)
    (a : AssignedElement) (views : Nat → Option VertexBufferView) (lookup : AddressLookup)
    (vbuf : BindingSlots) (draw : Draw) : Prop where
  reaches : Reaches inputs a vs read
  /-- Nothing is left in an unbound slot from an earlier draw. -/
  unbound : boundBuffer views lookup a.input.inputSlot = none → vbuf a.input.inputSlot = none
  /-- The offset of the buffer view in the heap fits an `unsigned`. -/
  placed : ∀ resource offset stride, boundBuffer views lookup a.input.inputSlot =
    some (resource, offset, stride) → resource.heapOffset + offset < 2 ^ 32
  /-- The step rate has 31 bits, and the base does not change the quotient. -/
  stepped : a.input.inputSlotClass = .perInstanceData →
    (steppedInstance draw vs).toNat / (a.input.instanceDataStepRate.toNat % 2 ^ 31) =
      draw.inst.toNat / a.input.instanceDataStepRate.toNat
  /-- The byte offset is a signed 32-bit number. -/
  inRange : ∀ resource offset stride, boundBuffer views lookup a.input.inputSlot =
    some (resource, offset, stride) → stride.toNat * a.row draw + a.offset < 2 ^ 31

/-! ## The layout -/

theorem and_not_two_pow {w : Nat} (n k : Nat) :
    BitVec.ofNat w n &&& ~~~(BitVec.ofNat w (2 ^ k - 1)) = BitVec.ofNat w (n / 2 ^ k * 2 ^ k) := by
  apply BitVec.eq_of_getLsbD_eq
  intro i hi
  rw [BitVec.getLsbD_and, BitVec.getLsbD_not, BitVec.getLsbD_ofNat, BitVec.getLsbD_ofNat,
    BitVec.getLsbD_ofNat, Nat.testBit_two_pow_sub_one, ← Nat.shiftRight_eq_div_pow,
      ← Nat.shiftLeft_eq,
    Nat.testBit_shiftLeft, Nat.testBit_shiftRight]
  by_cases h : i < k
  · simp [h, hi, Nat.not_le.mpr h]
  · simp [h, hi, Nat.le_of_not_lt h]

theorem align_ofNat (n k : Nat) :
    align (BitVec.ofNat 32 n) (BitVec.ofNat 32 (2 ^ k)) =
      BitVec.ofNat 32 ((n + 2 ^ k - 1) / 2 ^ k * 2 ^ k) := by
  have hpos := Nat.two_pow_pos k
  have hpred (m : Nat) (hm : 0 < m) : BitVec.ofNat 32 m - 1 = BitVec.ofNat 32 (m - 1) := by
    have hadd := @BitVec.ofNat_add 32 (m - 1) 1
    rw [Nat.sub_add_cancel hm] at hadd
    rw [hadd]
    exact BitVec.add_sub_cancel ..
  unfold align
  rw [← BitVec.ofNat_add, hpred _ (by omega), hpred _ hpos, and_not_two_pow]

theorem alignedByteOffset_eq (input : InputElementDesc) (format : FormatDesc)
    (hbytes : format.bytesPerTexel ≠ 0) (n : Nat) :
    alignedByteOffset input format (BitVec.ofNat 32 n) =
      BitVec.ofNat 32 (assignedOffset input format n) := by
  have hpow : ∃ k, min 4 format.bytesPerTexel = 2 ^ k := by
    have := format.sizes
    simp only [List.mem_cons, List.not_mem_nil, or_false] at this
    rcases this with h | h | h | h | h | h | h
    · exact absurd h hbytes
    · exact ⟨0, by rw [h]; rfl⟩
    · exact ⟨1, by rw [h]; rfl⟩
    · exact ⟨2, by rw [h]; rfl⟩
    · exact ⟨2, by rw [h]; rfl⟩
    · exact ⟨2, by rw [h]; rfl⟩
    · exact ⟨2, by rw [h]; rfl⟩
  obtain ⟨k, hmin⟩ := hpow
  unfold alignedByteOffset assignedOffset
  rw [hmin]
  split
  case isTrue => exact align_ofNat n k
  case isFalse => rw [BitVec.ofNat_toNat, BitVec.setWidth_eq]

/-- The elements of the layout are those that are assigned, with the offsets modulo `2 ^ 32`. -/
theorem layoutElements_spec {formats : FormatTable} {inputs : List InputElementDesc}
    {layout : List IAInputElement} {i : Nat} {ends : Nat → Nat}
    (h : layoutElements formats inputs i (fun slot => BitVec.ofNat 32 (ends slot)) = some layout) :
    layout = (assignedElements formats inputs i ends).map (fun a =>
        layoutElement a.input a.format a.position (BitVec.ofNat 32 a.offset)) ∧
      (assignedElements formats inputs i ends).map (·.input) = inputs ∧
      ∀ input ∈ inputs, input.inputSlot < 32 := by
  induction inputs generalizing layout i ends with
  | nil =>
    cases h
    exact ⟨rfl, rfl, fun input hinput => absurd hinput List.not_mem_nil⟩
  | cons input inputs ih =>
    unfold layoutElements at h
    split at h
    case isTrue => cases h
    case isFalse hslot =>
      unfold assignedElements
      cases hformat : formats input.format with
      | none =>
        rw [hformat] at h
        cases h
      | some format =>
        rw [hformat] at h
        dsimp only at h ⊢
        split at h
        case isTrue => cases h
        case isFalse hbytes =>
          have hupdate (offset : Nat) :
              Function.update (fun slot => BitVec.ofNat 32 (ends slot)) input.inputSlot
                  (BitVec.ofNat 32 offset + BitVec.ofNat 32 format.bytesPerTexel) =
                fun slot => BitVec.ofNat 32
                  (Function.update ends input.inputSlot (offset + format.bytesPerTexel) slot) := by
            funext slot
            by_cases hs : slot = input.inputSlot
            · subst hs
              rw [Function.update_self, Function.update_self, BitVec.ofNat_add]
            · rw [Function.update_of_ne hs, Function.update_of_ne hs]
          rw [alignedByteOffset_eq input format hbytes, hupdate] at h
          obtain ⟨rest, hrest, rfl⟩ := Option.map_eq_some_iff.mp h
          obtain ⟨hlayout, hinputs, hslots⟩ := ih hrest
          refine ⟨?_, ?_, fun x hx => ?_⟩
          · rw [List.map_cons, ← hlayout]
          · rw [List.map_cons, hinputs]
          · rcases List.mem_cons.mp hx with rfl | hx
            · omega
            · exact hslots x hx

theorem position_eq {formats : FormatTable} {inputs : List InputElementDesc} {i : Nat}
    {ends : Nat → Nat} {k : Nat} {a : AssignedElement}
    (h : (assignedElements formats inputs i ends)[k]? = some a) : a.position = i + k := by
  induction inputs generalizing i ends k with
  | nil => cases h
  | cons input inputs ih =>
    unfold assignedElements at h
    split at h
    case h_1 => cases h
    case h_2 format hformat =>
      cases k with
      | zero =>
        cases h
        rfl
      | succ k =>
        have := ih h
        omega

/-! ## The table of vertex buffers -/

theorem getLsbD_slotMask_foldl {slot : Nat} (hslot : slot < 32) (inputs : List InputElementDesc)
    (mask : Word) (h : mask.getLsbD slot = true ∨ ∃ input ∈ inputs, input.inputSlot = slot) :
    (inputs.foldl (fun mask input =>
      if input.inputSlot < 32 then mask ||| 1#32 <<< input.inputSlot else mask) mask).getLsbD
          slot = true := by
  induction inputs generalizing mask with
  | nil => exact h.resolve_right fun ⟨_, hmem, _⟩ => absurd hmem List.not_mem_nil
  | cons input inputs ih =>
    refine ih _ ?_
    rcases h with h | ⟨x, hx, hxs⟩
    · refine Or.inl ?_
      dsimp only
      split
      · rw [BitVec.getLsbD_or, h, Bool.true_or]
      · exact h
    · rcases List.mem_cons.mp hx with rfl | hx
      · refine Or.inl ?_
        dsimp only
        rw [if_pos (by omega), hxs, BitVec.getLsbD_or, BitVec.getLsbD_shiftLeft]
        simp [hslot]
      · exact Or.inr ⟨x, hx, hxs⟩

theorem getLsbD_slotMask {inputs : List InputElementDesc} {input : InputElementDesc}
    (hmem : input ∈ inputs) (hslot : input.inputSlot < 32) :
    (slotMask inputs).getLsbD input.inputSlot = true :=
  getLsbD_slotMask_foldl hslot inputs 0 (Or.inr ⟨input, hmem, rfl⟩)

theorem lt_maxSlot {mask : Word} {slot : Nat} (h : mask.getLsbD slot = true) :
    slot < maxSlot mask := by
  by_contra hle
  have hlt : mask.toNat < 2 ^ maxSlot mask := BitVec.toNat_lt_two_pow_sub_clz
  rw [BitVec.getLsbD, Nat.testBit_lt_two_pow
    (Nat.lt_of_lt_of_le hlt (Nat.pow_le_pow_right (by decide) (by omega)))] at h
  cases h

/-- The number of slots of the mask below a slot. -/
def rank (mask : Word) (slot : Nat) : Nat :=
  (List.range slot).countP (mask.getLsbD ·)

theorem rank_succ (mask : Word) (slot : Nat) :
    rank mask (slot + 1) = rank mask slot + if mask.getLsbD slot then 1 else 0 := by
  unfold rank
  rw [List.range_succ, List.countP_append, List.countP_singleton]

theorem rank_mono (mask : Word) {m n : Nat} (h : m ≤ n) : rank mask m ≤ rank mask n := by
  induction h with
  | refl => exact Nat.le_refl _
  | step _ ih =>
    rw [rank_succ]
    exact Nat.le_trans ih (Nat.le_add_right _ _)

theorem popcount_shift {mask : Word} {slot : Nat} (h : slot < 32) :
    popcount ((mask <<< (32 - slot)) >>> (32 - slot)) = rank mask slot := by
  have hsplit : 32 = slot + (32 - slot) := by omega
  unfold popcount rank
  rw [show List.range 32 = List.range (slot + (32 - slot)) from congrArg _ hsplit, List.range_add,
    List.countP_append, List.countP_map]
  have hbit (i : Nat) : ((mask <<< (32 - slot)) >>> (32 - slot)).getLsbD i =
      (decide (i < slot) && mask.getLsbD i) := by
    rw [BitVec.getLsbD_ushiftRight, BitVec.getLsbD_shiftLeft]
    by_cases hi : i < slot
    · simp [hi, show 32 - slot + i < 32 by omega]
    · simp [hi, show ¬ 32 - slot + i < 32 by omega]
  have hhigh : (List.range (32 - slot)).countP
      ((fun i => ((mask <<< (32 - slot)) >>> (32 - slot)).getLsbD i) ∘ (slot + ·)) = 0 := by
    rw [List.countP_eq_zero]
    intro i _
    rw [Function.comp_apply, hbit, decide_eq_false (by omega)]
    exact Bool.false_ne_true
  rw [hhigh, Nat.add_zero]
  refine List.countP_congr fun i hi => ?_
  rw [hbit, decide_eq_true (List.mem_range.mp hi), Bool.true_and]

theorem tableIndex_eq {mask : Word} {slot : Nat} (h : slot < 32) :
    tableIndex mask slot = rank mask slot := by
  unfold tableIndex
  rw [Nat.min_eq_left (by omega)]
  dsimp only
  split
  case isTrue => exact popcount_shift h
  case isFalse h0 => rw [Decidable.not_not.mp h0]; rfl

theorem vertexBufferEntryIndex_eq {mask : Word} {slot : Nat} (h : slot < 32) :
    vertexBufferEntryIndex mask slot = rank mask slot := by
  unfold vertexBufferEntryIndex
  dsimp only
  split
  case isTrue => exact popcount_shift h
  case isFalse h0 => rw [Decidable.not_not.mp h0]; rfl

theorem encodeSlot_of_set {mask : Word} {vbuf : BindingSlots} {slot : Nat}
    (h : mask.getLsbD slot = true) (acc : (Nat → VertexBufferEntry) × Nat) :
    encodeSlot mask vbuf acc slot =
      (Function.update acc.1 acc.2 (bufferEntry (vbuf slot)), acc.2 + 1) :=
  if_neg (by rw [h]; decide)

/-- The loop of `encodeVertexBuffers` up to slot `n`. -/
theorem encodeSlot_foldl (mask : Word) (vbuf : BindingSlots) (entries : Nat → VertexBufferEntry)
    (n : Nat) :
    ((List.range n).foldl (encodeSlot mask vbuf) (entries, 0)).2 = rank mask n ∧
      ∀ slot < n, mask.getLsbD slot = true →
        ((List.range n).foldl (encodeSlot mask vbuf) (entries, 0)).1 (rank mask slot) =
          bufferEntry (vbuf slot) := by
  induction n with
  | zero => exact ⟨rfl, fun slot h => absurd h (Nat.not_lt_zero _)⟩
  | succ n ih =>
    obtain ⟨hindex, hentries⟩ := ih
    rw [List.range_succ, List.foldl_append, List.foldl_cons, List.foldl_nil, rank_succ]
    cases hbit : mask.getLsbD n with
    | false =>
      have hstay (acc : (Nat → VertexBufferEntry) × Nat) : encodeSlot mask vbuf acc n = acc :=
        if_pos (by rw [hbit]; rfl)
      rw [hstay]
      refine ⟨hindex, fun slot hslot hset => hentries slot ?_ hset⟩
      refine Nat.lt_of_le_of_ne (Nat.le_of_lt_succ hslot) fun he => ?_
      rw [he, hbit] at hset
      cases hset
    | true =>
      rw [encodeSlot_of_set hbit]
      refine ⟨congrArg (· + 1) hindex, fun slot hslot hset => ?_⟩
      rw [hindex]
      rcases Nat.lt_succ_iff_lt_or_eq.mp hslot with hlt | rfl
      · -- the entries of the slots below are in front of this one
        have hrank : rank mask slot < rank mask n := by
          have := rank_mono mask hlt
          rw [rank_succ, hset] at this
          exact this
        exact (Function.update_of_ne (Nat.ne_of_lt hrank) _ _).trans (hentries slot hlt hset)
      · exact Function.update_self ..

theorem encodeVertexBuffers_rank {mask : Word} (vbuf : BindingSlots)
    (entries : Nat → VertexBufferEntry) {slot : Nat} (h : mask.getLsbD slot = true) :
    encodeVertexBuffers mask vbuf entries (rank mask slot) = bufferEntry (vbuf slot) :=
  (encodeSlot_foldl mask vbuf entries (maxSlot mask)).2 slot (lt_maxSlot h) h

theorem bindSlot_of_ne {mask : Word} {views : Nat → Option VertexBufferView}
    {lookup : AddressLookup} {vbuf : BindingSlots} {slot n : Nat} (h : slot ≠ n) :
    bindSlot mask views lookup vbuf n slot = vbuf slot := by
  unfold bindSlot bindVertexBuffer
  split
  case isTrue => rfl
  case isFalse =>
    cases views n with
    | none => rfl
    | some view =>
      dsimp only
      cases lookup view.bufferLocation with
      | none => rfl
      | some found => exact Function.update_of_ne h _ _

/-- A turn for a slot of the mask. -/
theorem bindSlot_self {mask : Word} {views : Nat → Option VertexBufferView} {lookup : AddressLookup}
    {vbuf : BindingSlots} {slot : Nat} (h : mask.getLsbD slot = true) :
    bindSlot mask views lookup vbuf slot slot =
      match boundBuffer views lookup slot with
      | none => vbuf slot
      | some (resource, offset, stride) =>
        some ⟨resource, BitVec.ofNat 32 (resource.heapOffset + offset), stride⟩ := by
  unfold bindSlot boundBuffer bindVertexBuffer
  rw [h, if_neg (by decide)]
  cases views slot with
  | none => rfl
  | some view =>
    rw [Option.bind_some]
    dsimp only
    cases lookup view.bufferLocation with
    | none => rfl
    | some found => exact Function.update_self ..

theorem bindSlot_foldl {mask : Word} {views : Nat → Option VertexBufferView}
    {lookup : AddressLookup} {vbuf : BindingSlots} {slot : Nat} (h : mask.getLsbD slot = true)
    (n : Nat) :
    (List.range n).foldl (bindSlot mask views lookup) vbuf slot =
      if slot < n then bindSlot mask views lookup vbuf slot slot else vbuf slot := by
  induction n with
  | zero => rfl
  | succ n ih =>
    rw [List.range_succ, List.foldl_append, List.foldl_cons, List.foldl_nil]
    by_cases hslot : slot = n
    · subst hslot
      rw [if_neg (Nat.lt_irrefl _)] at ih
      rw [if_pos (Nat.lt_succ_self _), bindSlot_self h, bindSlot_self h, ih]
    · rw [bindSlot_of_ne hslot, ih]
      by_cases hlt : slot < n
      · rw [if_pos hlt, if_pos (by omega)]
      · rw [if_neg hlt, if_neg (by omega)]

/-- The binding that the draw leaves in a slot of the mask. -/
theorem bindVertexBuffers_eq {mask : Word} (views : Nat → Option VertexBufferView)
    (lookup : AddressLookup) (vbuf : BindingSlots) {slot : Nat} (h : mask.getLsbD slot = true) :
    bindVertexBuffers mask views lookup vbuf slot =
      match boundBuffer views lookup slot with
      | none => vbuf slot
      | some (resource, offset, stride) =>
        some ⟨resource, BitVec.ofNat 32 (resource.heapOffset + offset), stride⟩ := by
  unfold bindVertexBuffers
  rw [bindSlot_foldl h, if_pos (lt_maxSlot h), bindSlot_self h]

/-! ## The elements of a DXIL shader -/

theorem getElem?_filterMap_append {α β : Type*} (f : α → Option β) (before : List α) (x : α)
    (rest : List α) {y : β} (h : f x = some y) :
    ((before ++ x :: rest).filterMap f)[before.countP fun a => (f a).isSome]? = some y := by
  induction before with
  | nil =>
    rw [List.nil_append, List.filterMap_cons_some h]
    rfl
  | cons a before ih =>
    rw [List.cons_append, List.countP_cons]
    cases ha : f a with
    | none =>
      rw [List.filterMap_cons_none ha]
      exact ih
    | some b =>
      rw [List.filterMap_cons_some ha]
      exact ih

/-- The inputs that follow an input leave its entry alone. -/
theorem buildSignature_of_not_mem {elements : List IAInputElement} {sigs : List SignatureElement}
    {k : Nat} {ctx : DxilAirContext} {id : Word}
    (h : ∀ sig ∈ sigs, sig.kind = .input → sig.elementId ≠ id) :
    (buildSignature elements sigs k ctx).vertexInputs id = ctx.vertexInputs id := by
  induction sigs generalizing k ctx with
  | nil => rfl
  | cons sig sigs ih =>
    have hrest := fun s hs => h s (List.mem_cons_of_mem _ hs)
    unfold buildSignature
    split
    case isTrue => exact ih hrest
    case isFalse hkind =>
      have hid : id ≠ sig.elementId :=
        fun he => h sig List.mem_cons_self (Decidable.not_not.mp hkind) he.symm
      split
      case isTrue => exact ih hrest
      case isFalse =>
        split
        case isTrue => exact ih hrest
        case isFalse =>
          split
          · exact (ih hrest).trans (Function.update_of_ne hid _ _)
          · exact ih hrest

/-- The counter gives an input the entry with the number of inputs in front that take one. -/
theorem buildSignature_append {elements : List IAInputElement} {before rest : List SignatureElement}
    {sig : SignatureElement} {k : Nat} {ctx : DxilAirContext} {element : IAInputElement}
    (hsig : sig.takes = true) (hget : elements[k + before.countP (·.takes)]? = some element)
    (hrest : ∀ s ∈ rest, s.kind = .input → s.elementId ≠ sig.elementId) :
    (buildSignature elements (before ++ sig :: rest) k ctx).vertexInputs sig.elementId =
    some element := by
  induction before generalizing k ctx with
  | nil =>
    unfold SignatureElement.takes at hsig
    simp only [Bool.and_eq_true, decide_eq_true_eq, Bool.not_eq_true'] at hsig
    obtain ⟨⟨hkind, hvertex⟩, hinstance⟩ := hsig
    rw [List.countP_nil, Nat.add_zero] at hget
    rw [List.nil_append]
    unfold buildSignature
    rw [if_neg (not_not.mpr hkind), hvertex, if_neg Bool.false_ne_true, hinstance,
      if_neg Bool.false_ne_true, hget]
    exact (buildSignature_of_not_mem hrest).trans (Function.update_self ..)
  | cons s before ih =>
    rw [List.countP_cons] at hget
    rw [List.cons_append]
    unfold buildSignature
    unfold SignatureElement.takes at hget
    by_cases hkind : s.kind = .input
    case neg =>
      rw [if_pos hkind]
      rw [decide_eq_false hkind] at hget
      exact ih hget
    case pos =>
      rw [if_neg (not_not.mpr hkind)]
      rw [decide_eq_true hkind] at hget
      cases hvertex : s.isVertexID with
      | true =>
        rw [hvertex] at hget
        exact ih hget
      | false =>
        cases hinstance : s.isInstanceID with
        | true =>
          rw [hvertex, hinstance] at hget
          exact ih hget
        | false =>
          rw [hvertex, hinstance] at hget
          have hlt : k < elements.length := by
            have := (List.getElem?_eq_some_iff.mp hget).1
            omega
          rw [if_neg Bool.false_ne_true, if_neg Bool.false_ne_true, List.getElem?_eq_getElem hlt]
          refine ih ?_
          rw [← hget]
          congr 1
          exact Nat.add_right_comm k 1 _

/-- No other input has the element id of an input. -/
theorem DxilSignature.ids_split (signature : DxilSignature) {before rest : List SignatureElement}
    {sig : SignatureElement} (h : signature.elements = before ++ sig :: rest)
    (hkind : sig.kind = .input) :
    (∀ s ∈ before, s.kind = .input → s.elementId ≠ sig.elementId) ∧
      ∀ s ∈ rest, s.kind = .input → s.elementId ≠ sig.elementId := by
  have hnodup := signature.ids
  rw [h, List.filter_append, List.filter_cons_of_pos (by rw [hkind]; rfl), List.map_append,
    List.map_cons, List.nodup_append] at hnodup
  obtain ⟨-, hrest, hbefore⟩ := hnodup
  have hmem {l : List SignatureElement} {s : SignatureElement} (hs : s ∈ l) (hs' : s.kind =
      .input) :
      s.elementId ∈ (l.filter (·.kind = .input)).map (·.elementId) :=
    List.mem_map_of_mem (List.mem_filter.mpr ⟨hs, decide_eq_true hs'⟩)
  refine ⟨fun s hs hs' => hbefore _ (hmem hs hs') _ List.mem_cons_self, fun s hs hs' he => ?_⟩
  exact (List.nodup_cons.mp hrest).1 (he ▸ hmem hs hs')

theorem DxilSignature.input_eq (signature : DxilSignature) {before rest : List SignatureElement}
    {sig : SignatureElement} (h : signature.elements = before ++ sig :: rest)
    (hkind : sig.kind = .input) :
    signature.input sig.elementId = some sig := by
  unfold DxilSignature.input
  rw [h, List.find?_append, List.find?_eq_none.mpr, Option.none_or, List.find?_cons_of_pos]
  · rw [hkind]
    simp
  · intro s hs hmatch
    rw [Bool.and_eq_true, decide_eq_true_eq, decide_eq_true_eq] at hmatch
    exact (signature.ids_split h hkind).1 s hs hmatch.1 hmatch.2

section Assigned

variable {formats : FormatTable} {inputs : List InputElementDesc} {layout : List IAInputElement}
  {a : AssignedElement}

/-- The element of the layout that `BuildInputElements` makes of an assigned one. -/
def AssignedElement.lowered (a : AssignedElement) : IAInputElement :=
  layoutElement a.input a.format a.position (BitVec.ofNat 32 a.offset)

theorem matchesElement_eq {sig : SignatureElement} (h : sig.semanticName ≠ [])
    (input : InputElementDesc) :
    sig.matchesElement input = input.hasSemantic sig.semanticName sig.semanticIndex.toNat := by
  unfold SignatureElement.matchesElement InputElementDesc.hasSemantic
  rw [if_pos h, Bool.and_comm]
  congr 1
  exact decide_eq_decide.mpr BitVec.toNat_inj.symm

/-- The layout, in terms of what is assigned. -/
theorem layout_eq (h : layoutElements formats inputs 0 (fun _ => 0) = some layout) :
    layout = (assignedElements formats inputs 0 fun _ => 0).map (·.lowered) ∧
      (assignedElements formats inputs 0 fun _ => 0).map (·.input) = inputs ∧
      ∀ input ∈ inputs, input.inputSlot < 32 :=
  @layoutElements_spec formats inputs layout 0 (fun _ => 0) h

theorem pushed_isSome (h : layoutElements formats inputs 0 (fun _ => 0) = some layout)
    (sig : SignatureElement) : (sig.pushed inputs layout).isSome = sig.brings inputs := by
  have hlength : layout.length = inputs.length := by
    obtain ⟨hlayout, hinputs, -⟩ := layout_eq h
    have := congrArg List.length hinputs
    rw [List.length_map] at this
    rw [hlayout, List.length_map, this]
  unfold SignatureElement.pushed SignatureElement.brings
  by_cases hkind : sig.kind = .input
  case neg => simp [hkind]
  case pos =>
    cases sig.isSystemGeneratedValue with
    | true => simp
    | false =>
      rw [decide_eq_false (not_not.mpr hkind), decide_eq_true hkind]
      cases hfind : inputs.findIdx? sig.matchesElement with
      | none =>
        rw [List.findIdx?_eq_none_iff] at hfind
        have hany : inputs.any sig.matchesElement = false :=
          List.any_eq_false.mpr fun input hinput => by
          rw [hfind input hinput]
          exact Bool.false_ne_true
        rw [hany]
        rfl
      | some k =>
        obtain ⟨hk, hmatch, -⟩ := List.findIdx?_eq_some_iff_getElem.mp hfind
        have hany : inputs.any sig.matchesElement = true :=
          List.any_eq_true.mpr ⟨_, List.getElem_mem hk, hmatch⟩
        rw [hany]
        dsimp only
        rw [List.getElem?_eq_getElem (hlength ▸ hk)]
        rfl

/-- The search of `BuildInputElements` finds the entry that is assigned to the element. -/
theorem pushed_eq (h : layoutElements formats inputs 0 (fun _ => 0) = some layout)
    {sig : SignatureElement} (hkind : sig.kind = .input)
    (hsystem : sig.isSystemGeneratedValue = false) (hnamed : sig.semanticName ≠ [])
    (ha : (assignedElements formats inputs 0 fun _ => 0).find? (fun a =>
      a.input.hasSemantic sig.semanticName sig.semanticIndex.toNat) = some a) :
    sig.pushed inputs layout = some { a.lowered with reg := sig.startRow } := by
  obtain ⟨hlayout, hinputs, -⟩ := layout_eq h
  clear h
  generalize assignedElements formats inputs 0 (fun _ => 0) = assigned at ha hlayout hinputs
  obtain ⟨hmatch, k, hk, hget, hfirst⟩ := List.find?_eq_some_iff_getElem.mp ha
  have hindex : inputs.findIdx? sig.matchesElement = some k := by
    rw [← hinputs, List.findIdx?_map, List.findIdx?_eq_some_iff_getElem]
    refine ⟨hk, ?_, fun j hj => ?_⟩
    · rw [Function.comp_apply, matchesElement_eq hnamed, hget]
      exact hmatch
    · rw [Function.comp_apply, matchesElement_eq hnamed]
      have := hfirst j hj
      rwa [Bool.not_eq_true', ← Bool.not_eq_true] at this
  unfold SignatureElement.pushed
  rw [hsystem, decide_eq_false (not_not.mpr hkind), hindex, hlayout]
  dsimp only
  rw [List.getElem?_map, List.getElem?_eq_getElem hk, hget]
  rfl

theorem reg_eq_position : a.lowered.reg = a.position := rfl

/-- The first element with the register of an entry is that entry. -/
theorem find?_reg_eq (h : layoutElements formats inputs 0 (fun _ => 0) = some layout)
    (ha : a ∈ assignedElements formats inputs 0 fun _ => 0) :
    layout.find? (·.reg = a.position) = some a.lowered := by
  obtain ⟨hlayout, -, -⟩ := layout_eq h
  obtain ⟨k, hk, hget⟩ := List.getElem_of_mem ha
  have hposition (j : Nat) (x : AssignedElement)
      (hx : (assignedElements formats inputs 0 fun _ => 0)[j]? = some x) : x.position = j := by
    rw [position_eq hx, Nat.zero_add]
  rw [hlayout, List.find?_map, Option.map_eq_some_iff]
  refine ⟨a, List.find?_eq_some_iff_getElem.mpr ⟨decide_eq_true rfl, k, hk, hget, fun j hj => ?_⟩,
      rfl⟩
  have hj' := hposition j _ (List.getElem?_eq_getElem (Nat.lt_trans hj hk))
  have hk' := hposition k a (hget ▸ List.getElem?_eq_getElem hk)
  rw [Bool.not_eq_true', Function.comp_apply, reg_eq_position, decide_eq_false]
  omega

/-! ## Reads -/

theorem elementIndex_eq {e : IAInputElement} {draw : Draw} {inst : Word}
    (hstep : e.stepFunction = a.lowered.stepFunction) (hrate : e.stepRate = a.lowered.stepRate)
    (hstepped : a.input.inputSlotClass = .perInstanceData →
      inst.toNat / (a.input.instanceDataStepRate.toNat % 2 ^ 31) =
        draw.inst.toNat / a.input.instanceDataStepRate.toNat) :
    elementIndex e draw.vertex inst draw.startInstance = BitVec.ofNat 32 (a.row draw) := by
  unfold elementIndex AssignedElement.row
  rw [hstep, hrate]
  unfold AssignedElement.lowered layoutElement
  dsimp only
  cases hclass : a.input.inputSlotClass with
  | perVertexData =>
    rw [if_neg (by decide), BitVec.ofNat_toNat, BitVec.setWidth_eq]
  | perInstanceData =>
    have hquot := hstepped hclass
    rw [if_pos (by decide)]
    dsimp only
    rw [← hquot, BitVec.ofNat_add, BitVec.ofNat_toNat, BitVec.setWidth_eq]
    have hwidth : (a.input.instanceDataStepRate.setWidth 31).toNat =
        a.input.instanceDataStepRate.toNat % 2 ^ 31 := BitVec.toNat_setWidth ..
    split
    case isTrue =>
      congr 1
      apply BitVec.eq_of_toNat_eq
      rw [BitVec.toNat_udiv, BitVec.toNat_ofNat, BitVec.toNat_setWidth, hwidth,
        Nat.mod_eq_of_lt (Nat.lt_trans (Nat.mod_lt _ (by decide)) (by decide)),
        Nat.mod_eq_of_lt (Nat.lt_of_le_of_lt (Nat.div_le_self _ _) inst.isLt)]
    case isFalse h0 =>
      -- a rate of zero never steps
      have hzero : (a.input.instanceDataStepRate.setWidth 31).toNat = 0 :=
        congrArg BitVec.toNat (Decidable.not_not.mp h0)
      rw [← hwidth, hzero, Nat.div_zero]
      exact (BitVec.add_zero _).symm

theorem pullVec4FromAddr_null (format : Nat) (byteOffset : Word) (component : Nat) :
    pullVec4FromAddr format 0 byteOffset component = .pulled format none component := rfl

theorem pullVec4FromAddr_eq {format base component n : Nat} {byteOffset : Word} (hbase : 0 < base)
    (h : byteOffset = BitVec.ofNat 32 n) (hn : n < 2 ^ 31) :
    pullVec4FromAddr format base byteOffset component =
    .pulled format (some ↑(base + n)) component := by
  have hnat : byteOffset.toNat = n := by
    rw [h, BitVec.toNat_ofNat, Nat.mod_eq_of_lt (by omega)]
  unfold pullVec4FromAddr
  rw [if_neg (by omega), BitVec.toInt_eq_toNat_of_lt (by omega), hnat]
  rfl

/-- **A pull** through the table of the draw yields the assigned value, when the element has the
fields of the assigned one. -/
theorem pullElement_eq {vs : VertexShader} {read : InputRead}
    {views : Nat → Option VertexBufferView} {lookup : AddressLookup} {vbuf : BindingSlots}
    {draw : Draw} {e : IAInputElement} {mask : Word}
    (hc : Condition inputs vs read a views lookup vbuf draw)
    (hset : mask.getLsbD a.input.inputSlot = true) (hformat : e.format = a.lowered.format)
    (hoffset : e.alignedByteOffset = a.lowered.alignedByteOffset)
    (hstep : e.stepFunction = a.lowered.stepFunction) (hrate : e.stepRate = a.lowered.stepRate)
    (entries : Nat → VertexBufferEntry) (component : Nat) :
    pullElement (encodeVertexBuffers mask (bindVertexBuffers mask views lookup vbuf) entries)
        (rank mask a.input.inputSlot) e
        (elementIndex e draw.vertex (steppedInstance draw vs) draw.startInstance) component =
      a.value views lookup draw component := by
  unfold pullElement AssignedElement.value
  rw [elementIndex_eq hstep hrate hc.stepped, encodeVertexBuffers_rank _ _ hset,
    bindVertexBuffers_eq views lookup vbuf hset, hformat, hoffset]
  cases hbound : boundBuffer views lookup a.input.inputSlot with
  | none =>
    dsimp only
    rw [hc.unbound hbound]
    exact pullVec4FromAddr_null ..
  | some found =>
    obtain ⟨resource, offset, stride⟩ := found
    have hplaced := hc.placed resource offset stride hbound
    have hoff : (BitVec.ofNat 32 (resource.heapOffset + offset)).toNat =
        resource.heapOffset + offset := by
      rw [BitVec.toNat_ofNat, Nat.mod_eq_of_lt hplaced]
    have hword : stride * BitVec.ofNat 32 (a.row draw) + BitVec.ofNat 32 a.offset =
        BitVec.ofNat 32 (stride.toNat * a.row draw + a.offset) := by
      rw [BitVec.ofNat_add, BitVec.ofNat_mul, BitVec.ofNat_toNat, BitVec.setWidth_eq]
    refine (pullVec4FromAddr_eq (Nat.lt_of_lt_of_le resource.placed (Nat.le_add_right _ _)) hword
      (hc.inRange resource offset stride hbound)).trans ?_
    rw [hoff, Option.map_some]
    congr 3
    omega

/-- The entry of a DXIL input that is reached is the one that is assigned. -/
theorem buildSignature_eq {signature : DxilSignature} {before rest : List SignatureElement}
    {sig : SignatureElement} (h : layoutElements formats inputs 0 (fun _ => 0) = some layout)
    (hsplit : signature.elements = before ++ sig :: rest) (hkind : sig.kind = .input)
    (hsystem : sig.isSystemGeneratedValue = false)
    (hcount : before.countP (·.takes) = before.countP (·.brings inputs)) (htakes : sig.takes = true)
    (ha : (assignedElements formats inputs 0 fun _ => 0).find? (fun a =>
      a.input.hasSemantic sig.semanticName sig.semanticIndex.toNat) =
        some a) (ctx : DxilAirContext) :
    (buildSignature
        (let elements := signature.elements.filterMap (SignatureElement.pushed inputs layout)
          if elements.isEmpty then layout else elements) signature.elements 0 ctx).vertexInputs
      sig.elementId = some { a.lowered with reg := sig.startRow } := by
  have hnamed := signature.named sig (hsplit ▸ List.mem_append_right _ List.mem_cons_self)
  have hpushed := pushed_eq h hkind hsystem hnamed ha
  have hentry :=
    getElem?_filterMap_append (SignatureElement.pushed inputs layout) before sig rest hpushed
  rw [← hsplit, List.countP_congr fun s _ => by rw [pushed_isSome h s], ← hcount] at hentry
  have hne : (signature.elements.filterMap
      (SignatureElement.pushed inputs layout)).isEmpty = false := by
    cases he : signature.elements.filterMap (SignatureElement.pushed inputs layout) with
    | nil =>
      rw [he] at hentry
      cases hentry
    | cons => rfl
  dsimp only
  rw [hne, if_neg Bool.false_ne_true]
  conv =>
    lhs
    arg 1
    arg 2
    rw [hsplit]
  refine buildSignature_append htakes ?_ (signature.ids_split hsplit hkind).2
  rw [Nat.zero_add]
  exact hentry

/-- **Main result.** A read of a vertex input yields the value that D3D assigns to it, when the
entry is reached, the slot holds what the draw binds to it, and the index and the byte offset come
out exactly. -/
theorem vertex_input_contract {vs : VertexShader} {elements : List IAInputElement} {mask : Word}
    {read : InputRead} {views : Nat → Option VertexBufferView} {lookup : AddressLookup}
    {vbuf : BindingSlots} {draw : Draw}
    (hbuild : buildInputElements formats inputs vs = some (elements, mask))
    (ha : assignedElement formats inputs vs read = some a)
    (hc : Condition inputs vs read a views lookup vbuf draw) (entries : Nat → VertexBufferEntry) :
    readInput vs elements mask
        (encodeVertexBuffers mask (bindVertexBuffers mask views lookup vbuf) entries)
          draw.arguments read =
      a.value views lookup draw read.component := by
  unfold buildInputElements at hbuild
  obtain ⟨layout, hlayout, hpair⟩ := Option.map_eq_some_iff.mp hbuild
  obtain ⟨rfl, rfl⟩ := Prod.mk.inj hpair
  unfold assignedElement at ha
  obtain ⟨semantic, hsemantic, hfind⟩ := Option.bind_eq_some_iff.mp ha
  have hmem := List.mem_of_find?_eq_some hfind
  obtain ⟨-, hinputs, hslots⟩ := layout_eq hlayout
  have hinput : a.input ∈ inputs := hinputs ▸ List.mem_map_of_mem hmem
  have hslot := hslots _ hinput
  have hset := getLsbD_slotMask hinput hslot
  have hreaches := hc.reaches
  cases vs with
  | dxil signature =>
    cases read with
    | inputRegister register m component => exact absurd hreaches id
    | loadInput elementId row column =>
      obtain ⟨rfl, before, sig, rest, hsplit, hkind, rfl, hsystem, hcount⟩ := hreaches
      unfold InputRead.semantic at hsemantic
      dsimp only at hsemantic
      rw [signature.input_eq hsplit hkind, Option.bind_some] at hsemantic
      split at hsemantic
      case isTrue => cases hsemantic
      case isFalse hgenerated =>
        cases hsemantic
        have htakes : sig.takes = true := by
          rw [Bool.not_eq_true, Bool.or_eq_false_iff] at hgenerated
          unfold SignatureElement.takes
          rw [hgenerated.1, hgenerated.2, decide_eq_true hkind]
          rfl
        unfold readInput loadSignatureInput
        dsimp only
        rw [buildSignature_eq hlayout hsplit hkind hsystem hcount htakes hfind]
        dsimp only
        rw [show ({ a.lowered with reg := sig.startRow } : IAInputElement).slot =
          a.input.inputSlot from rfl,
          tableIndex_eq hslot]
        exact pullElement_eq hc hset rfl rfl rfl rfl entries column
  | dxbc parameters =>
    cases read with
    | loadInput elementId row column => exact absurd hreaches id
    | inputRegister register m component =>
      unfold InputRead.semantic at hsemantic
      dsimp only at hsemantic
      split at hsemantic
      case isFalse => cases hsemantic
      case isTrue hcomponent =>
        obtain ⟨parameter, hparameter, -⟩ := Option.map_eq_some_iff.mp hsemantic
        obtain rfl : a.position = register := hreaches
        unfold readInput readInputRegister
        dsimp only
        rw [hparameter, hcomponent, if_neg (by exact Bool.false_ne_true), find?_reg_eq hlayout hmem]
        unfold pullVertexInput
        dsimp only
        have hinst : draw.arguments.instanceId - draw.arguments.baseInstance = draw.inst := by
          show draw.startInstance + draw.inst - draw.startInstance = draw.inst
          rw [BitVec.add_comm, BitVec.add_sub_cancel]
        rw [show a.lowered.slot = a.input.inputSlot from rfl, vertexBufferEntryIndex_eq hslot,
          hinst]
        exact pullElement_eq hc hset rfl rfl rfl rfl entries component

end Assigned

/-! ## Instance data with a start instance -/

/-- `R32G32B32A32_FLOAT` is the only format. -/
def exampleFormats : FormatTable := fun format =>
  if format = 2 then some ⟨31, 16, by decide⟩ else none

/-- One element with per-instance data, stepped for each instance. -/
def instanceElement : InputElementDesc :=
  ⟨"COLOR".toList, 0, 2, 0, 0, .perInstanceData, 1⟩

/-- A shader that reads one color. -/
def instanceShader : VertexShader :=
  .dxil ⟨[⟨.input, 0, "COLOR".toList, 0, 0, 0⟩], by decide, by decide⟩

/-- The color, stepped per instance. -/
def assignedInstanceElement : AssignedElement :=
  ⟨0, instanceElement, ⟨31, 16, by decide⟩, 0⟩

/-- One view, at address zero. -/
def exampleViews : Nat → Option VertexBufferView := fun slot =>
  if slot = 0 then some ⟨0, 16⟩ else none

/-- Every address is in one buffer. -/
def exampleLookup : AddressLookup := fun location =>
  some (⟨0x1000, 256, 0, by decide⟩, location)

/-- What the shader reads of its input in a draw. -/
def readInstanceElement (draw : Draw) : InputValue :=
  match buildInputElements exampleFormats [instanceElement] instanceShader with
  | none => .undefined
  | some (elements, mask) =>
    readInput instanceShader elements mask
      (encodeVertexBuffers mask (bindVertexBuffers mask exampleViews exampleLookup fun _ => none)
        fun _ => ⟨0, 0, 0⟩) draw.arguments (.loadInput 0 0 0)

/-- In the first instance of a draw with start instance 1 the shader reads the entry behind the one
that is assigned: the base is in the index twice. -/
theorem start_instance_counted_twice :
    assignedElement exampleFormats [instanceElement] instanceShader (.loadInput 0 0 0) =
        some assignedInstanceElement ∧
      readInstanceElement ⟨0, 0, 0, 1⟩ = .pulled 31 (some 0x1020) 0 ∧
      assignedInstanceElement.value exampleViews exampleLookup ⟨0, 0, 0, 1⟩ 0 =
        .pulled 31 (some 0x1010) 0 :=
  ⟨rfl, rfl, rfl⟩

/-- Without a start instance the third instance reads its entry. -/
theorem vertex_input_contract_instance :
    readInstanceElement ⟨0, 0, 3, 0⟩ = .pulled 31 (some 0x1030) 0 := by
  have hbound : boundBuffer exampleViews exampleLookup 0 = some (⟨0x1000, 256, 0, by decide⟩, 0,
      16) := rfl
  have hc : Condition [instanceElement] instanceShader (.loadInput 0 0 0) assignedInstanceElement
      exampleViews exampleLookup (fun _ => none) ⟨0, 0, 3, 0⟩ :=
    { reaches := ⟨rfl, [], _, [], rfl, rfl, rfl, rfl, rfl⟩
      unbound := fun h => rfl
      placed := fun resource offset stride h => by
        cases hbound.symm.trans h
        decide
      stepped := fun _ => rfl
      inRange := fun resource offset stride h => by
        cases hbound.symm.trans h
        decide }
  have hassigned : assignedElement exampleFormats [instanceElement] instanceShader
      (.loadInput 0 0 0) =
      some assignedInstanceElement := rfl
  exact vertex_input_contract rfl hassigned hc fun _ => ⟨0, 0, 0⟩

end VertexInput

end Dxmt
