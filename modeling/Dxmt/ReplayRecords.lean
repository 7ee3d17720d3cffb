import Dxmt.ByteWords

/-!
# Records and replay state: `ReplayState`, `PredicationAllows`

A closed command list is a list of records; a queue replays them into a chunk. What a replay reads
is in three places: the state that the records before set, the objects that the state names, and the
contents of mapped buffers.

An object is named by a number, and so are formats, views, viewports, scissors and enumerations that
are passed on only. The float of a record is its bits. The records that neither read nor change the
state have their payload as a parameter.

Source: `d3d12_command_list.hpp:30-252`, `d3d12_command_queue.cpp:375-600, 2297-2407`.
-/

namespace Dxmt

namespace Replay

/-- A COM object. -/
abbrev ObjectId := Nat

/-- `D3D12_GPU_VIRTUAL_ADDRESS`. -/
abbrev GpuVirtualAddress := Nat

/-- A stored `DescriptorRecord`. -/
abbrev Descriptor := Nat

/-! ## Records -/

/-- A `D3D12_VIEWPORT`, which a draw passes on. -/
abbrev Viewport := Nat

/-- A `D3D12_RECT`, which a draw passes on. -/
abbrev Rect := Nat

/-- `D3D12_VERTEX_BUFFER_VIEW`. -/
structure VertexBufferView where
  bufferLocation : GpuVirtualAddress
  sizeInBytes : Nat
  strideInBytes : Nat

/-- `D3D12_INDEX_BUFFER_VIEW`. -/
structure IndexBufferView where
  bufferLocation : GpuVirtualAddress
  sizeInBytes : Nat
  format : Nat

/-- `DrawInstanced` and its arguments. -/
structure DrawInstancedRecord where
  vertexCountPerInstance : Nat
  instanceCount : Nat
  startVertexLocation : Nat
  startInstanceLocation : Nat

/-- `DrawIndexedInstanced` and its arguments. -/
structure DrawIndexedInstancedRecord where
  indexCountPerInstance : Nat
  instanceCount : Nat
  startIndexLocation : Nat
  baseVertexLocation : Int
  startInstanceLocation : Nat

/-- `Dispatch` and its group counts. -/
structure DispatchRecord where
  x : Nat
  y : Nat
  z : Nat

/-- Root constants set at an offset of a parameter. -/
structure RootConstantsRecord where
  compute : Bool
  rootParameterIndex : Nat
  dstOffset : Nat
  values : List Word

/-- The parameter type of a root descriptor. -/
inductive RootDescriptorKind where
  | cbv
  | srv
  | uav
deriving DecidableEq

/-- A root descriptor set on a parameter. -/
structure RootDescriptorRecord where
  compute : Bool
  parameterType : RootDescriptorKind
  rootParameterIndex : Nat
  address : GpuVirtualAddress

/-- `D3D12_PREDICATION_OP`. -/
inductive PredicationOp where
  | equalZero
  | notEqualZero
  | other (value : Nat)
deriving DecidableEq

/-- `SetPredication` and its arguments. -/
structure PredicationRecord where
  buffer : Option ObjectId
  bufferOffset : Nat
  operation : PredicationOp

/-- `D3D12_WRITEBUFFERIMMEDIATE_PARAMETER`. -/
structure WriteBufferImmediateParameter where
  dest : GpuVirtualAddress
  value : Word

/-- `ExecuteIndirect` and its arguments. -/
structure ExecuteIndirectRecord where
  commandSignature : Option ObjectId
  maxCommandCount : Nat
  argBuffer : Option ObjectId
  argBufferOffset : Nat
  countBuffer : Option ObjectId
  countBufferOffset : Nat

/-- The records that are replayed from their payload alone. -/
inductive TransferKind where
  | copyBufferRegion
  | copyTextureRegion
  | copyResource
  | resolveSubresource
  | clearRenderTarget
  | clearDepthStencil
  | clearUnorderedAccess
  | discardResource
  | resourceBarrier
  | beginQuery
  | endQuery
  | resolveQueryData
deriving DecidableEq

/-- `CommandRecordPayload`. -/
inductive Record (Payload : Type) where
  | transfer (kind : TransferKind) (payload : Payload)
  | pipelineState (pipelineState : Option ObjectId)
  | primitiveTopology (topology : Nat)
  | viewport (viewports : List Viewport)
  | scissor (rects : List Rect)
  | blendFactor (blendFactor : List Word)
  | stencilRef (stencilRef : Nat)
  | renderTargets (renderTargets : List Descriptor) (depthStencil : Option Descriptor)
  | descriptorHeaps (heaps : List ObjectId)
  | vertexBuffers (startSlot : Nat) (views : List VertexBufferView)
  | indexBuffer (view : Option IndexBufferView)
  | rootSignature (compute : Bool) (rootSignature : Option ObjectId)
  | rootDescriptorTable (compute : Bool) (rootParameterIndex : Nat) (baseDescriptor : Nat)
  | rootDescriptor (record : RootDescriptorRecord)
  | rootConstants (record : RootConstantsRecord)
  | predication (record : PredicationRecord)
  | writeBufferImmediate (parameters : List WriteBufferImmediateParameter)
  | executeIndirect (record : ExecuteIndirectRecord)
  | drawInstanced (record : DrawInstancedRecord)
  | drawIndexedInstanced (record : DrawIndexedInstancedRecord)
  | dispatch (record : DispatchRecord)

/-! ## State -/

/-- `ReplayState` but for its batch. -/
structure BoundState where
  pipelineState : Option ObjectId := none
  graphicsRootSignature : Option ObjectId := none
  computeRootSignature : Option ObjectId := none
  topology : Nat := 4
  viewports : List Viewport := []
  scissors : List Rect := []
  blendFactor : List Word := [0x3f800000, 0x3f800000, 0x3f800000, 0x3f800000]
  stencilRef : Nat := 0
  renderTargets : List Descriptor := []
  depthStencil : Option Descriptor := none
  vertexBuffers : Nat → Option VertexBufferView := fun _ => none
  indexBuffer : Option IndexBufferView := none
  cbvSrvUavHeap : Option ObjectId := none
  samplerHeap : Option ObjectId := none
  graphicsTables : Nat → Option Nat := fun _ => none
  computeTables : Nat → Option Nat := fun _ => none
  graphicsRootConstants : Nat → List Word := fun _ => []
  computeRootConstants : Nat → List Word := fun _ => []
  graphicsCbvRoots : Nat → Option GpuVirtualAddress := fun _ => none
  computeCbvRoots : Nat → Option GpuVirtualAddress := fun _ => none
  graphicsSrvRoots : Nat → Option GpuVirtualAddress := fun _ => none
  computeSrvRoots : Nat → Option GpuVirtualAddress := fun _ => none
  graphicsUavRoots : Nat → Option GpuVirtualAddress := fun _ => none
  computeUavRoots : Nat → Option GpuVirtualAddress := fun _ => none
  predicationBuffer : Option ObjectId := none
  predicationBufferOffset : Nat := 0
  predicationOperation : PredicationOp := .equalZero

/-- The entry of a map. -/
def insert {α : Type} (entries : Nat → α) (key : Nat) (value : α) : Nat → α :=
  fun k => if k = key then value else entries k

/-- The slots from `startSlot` on; there are 32 of them. -/
def storeVertexBuffers (startSlot : Nat) (views : List VertexBufferView)
    (slots : Nat → Option VertexBufferView) : Nat → Option VertexBufferView :=
  fun slot =>
    if startSlot ≤ slot ∧ slot < 32 then
      match views[slot - startSlot]? with
      | some view => some view
      | none => slots slot
    else slots slot

/-- Stores the address of a root descriptor under its kind and its pipeline. -/
def storeRootDescriptor (state : BoundState) (record : RootDescriptorRecord) : BoundState :=
  match record.parameterType, record.compute with
  | .cbv, true =>
    { state with
      computeCbvRoots := insert state.computeCbvRoots record.rootParameterIndex record.address }
  | .cbv, false =>
    { state with
      graphicsCbvRoots := insert state.graphicsCbvRoots record.rootParameterIndex record.address }
  | .uav, true =>
    { state with
      computeUavRoots := insert state.computeUavRoots record.rootParameterIndex record.address }
  | .uav, false =>
    { state with
      graphicsUavRoots := insert state.graphicsUavRoots record.rootParameterIndex record.address }
  | .srv, true =>
    { state with
      computeSrvRoots := insert state.computeSrvRoots record.rootParameterIndex record.address }
  | .srv, false =>
    { state with
      graphicsSrvRoots := insert state.graphicsSrvRoots record.rootParameterIndex record.address }

/-- The constants with the new values; zeros fill the gap. -/
def storeConstants (values : List Word) (dstOffset : Nat) (new : List Word) : List Word :=
  let resized := values ++ List.replicate (dstOffset + new.length - values.length) 0
  resized.take dstOffset ++ new ++ resized.drop (dstOffset + new.length)

/-- `StoreRootConstants`: values at and after an offset. The source adds the offset and the count in
32 bits and copies outside the values where the sum wraps; `RootLimits.storeRootConstants` models
that, and the wrap is left out here. -/
def storeRootConstants (state : BoundState) (record : RootConstantsRecord) : BoundState :=
  if record.compute then
    { state with
      computeRootConstants := insert state.computeRootConstants record.rootParameterIndex
        (storeConstants (state.computeRootConstants record.rootParameterIndex) record.dstOffset
          record.values) }
  else
    { state with
      graphicsRootConstants := insert state.graphicsRootConstants record.rootParameterIndex
        (storeConstants (state.graphicsRootConstants record.rootParameterIndex) record.dstOffset
          record.values) }

/-! ## Objects -/

/-- `ReplayRenderTargetAttachment`. -/
structure RenderTargetAttachment where
  texture : ObjectId
  view : Nat
  slot : Nat
  arrayLength : Nat
  width : Nat
  height : Nat
  format : Nat

/-- `ReplayDepthStencilAttachment`. -/
structure DepthStencilAttachment where
  texture : ObjectId
  view : Nat
  arrayLength : Nat
  width : Nat
  height : Nat
  format : Nat

/-- `ReplayRenderPassAttachments`. -/
structure RenderPassAttachments where
  colors : List RenderTargetAttachment := []
  depthStencil : Option DepthStencilAttachment := none

/-- The two kinds of a pipeline state. -/
inductive PipelineStateType where
  | graphics
  | compute
deriving DecidableEq

/-- `PipelineMetalGraphicsState` with a pipeline. -/
structure MetalGraphicsState where
  pso : ObjectId
  depthStencil : Option ObjectId
  rasterizer : Nat

/-- `PipelineMetalComputeState` with a pipeline. -/
structure MetalComputeState where
  pso : ObjectId
  width : Nat
  height : Nat
  depth : Nat

/-- A pipeline state with the Metal pipelines it was compiled to. -/
structure PipelineState where
  type : PipelineStateType
  metalGraphics : Option MetalGraphicsState
  metalCompute : Option MetalComputeState
  graphicsArgumentBufferSize : Nat
  computeArgumentBufferSize : Nat

/-- A resource; `allocation` is that of a buffer. -/
structure Resource where
  id : ObjectId
  width : Nat
  heapOffset : Nat
  allocation : Option ObjectId

/-- A descriptor heap that is visible to shaders. -/
inductive DescriptorHeapType where
  | cbvSrvUav
  | sampler
  | other
deriving DecidableEq

/-- A descriptor heap, as far as the replay reads it. -/
structure DescriptorHeap where
  type : DescriptorHeapType
  shaderVisible : Bool

/-- `D3D12_INDIRECT_ARGUMENT_DESC`. -/
inductive IndirectArgument where
  | draw
  | drawIndexed
  | dispatch
  | vertexBufferView (slot : Nat)
  | indexBufferView
  | constant (rootParameterIndex destOffsetIn32BitValues num32BitValuesToSet : Nat)
  | constantBufferView (rootParameterIndex : Nat)
  | shaderResourceView (rootParameterIndex : Nat)
  | unorderedAccessView (rootParameterIndex : Nat)
  | other (type : Nat)

/-- A command signature: its arguments and the stride between commands. -/
structure CommandSignature where
  byteStride : Nat
  arguments : List IndirectArgument
  rootSignature : Option ObjectId

/-- What the objects are, and the two computations that the replay leaves to floats and to Metal. -/
structure Device where
  pipelineState : ObjectId → Option PipelineState
  resource : ObjectId → Option Resource
  bufferAt : GpuVirtualAddress → Option (Resource × Nat)
  descriptorHeap : ObjectId → Option DescriptorHeap
  commandSignature : ObjectId → Option CommandSignature
  renderTarget : Descriptor → Option (Nat → RenderTargetAttachment)
  depthStencil : Descriptor → Option DepthStencilAttachment
  mapped : ObjectId → Bool
  viewportRect : Viewport → Rect
  newBuffer : Nat → Option ObjectId

/-- A byte of an allocation. -/
abbrev Location := ObjectId × Nat

/-- The bytes of the allocations. -/
abbrev Memory := Location → Byte

variable (device : Device)

/-- The bound pipeline state. -/
def getPipelineState (state : BoundState) : Option PipelineState :=
  state.pipelineState.bind device.pipelineState

/-- The resource of a reference, where there is one. -/
def getResource (resource : Option ObjectId) : Option Resource :=
  resource.bind device.resource

/-- Where the bytes of a mapped buffer are; `none` outside it. -/
def bufferPlace (resource : Option ObjectId) (offset size : Nat) : Option Location := do
  let resource ← getResource device resource
  let allocation ← resource.allocation
  if offset > resource.width ∨ size > resource.width - offset then none
  else if device.mapped allocation then some (allocation, resource.heapOffset + offset)
  else none

/-- `ReadBufferBytes`: bytes of a buffer, where its range is valid. -/
def readBufferBytes (memory : Memory) (resource : Option ObjectId) (offset size : Nat) :
    Option (List Byte) :=
  (bufferPlace device resource offset size).map fun place =>
    (List.range size).map fun i => memory (place.1, place.2 + i)

/-- `ValidateBufferRange`: the range lies inside an allocated buffer. -/
def validateBufferRange (resource : Resource) (offset size : Nat) : Bool :=
  resource.allocation.isSome &&
    !(decide (offset > resource.width) || decide (size > resource.width - offset))

/-- The bytes of an allocation with the new data. -/
def updateContents (memory : Memory) (allocation : ObjectId) (offset : Nat) (data : List Byte) :
    Memory :=
  fun l =>
    if l.1 = allocation ∧ offset ≤ l.2 ∧ l.2 < offset + data.length then
      data[l.2 - offset]?.getD 0
    else memory l

/-- Eight bytes as a number. -/
def readU64 (data : List Byte) (offset : Nat) : Nat :=
  (readU32 data offset).toNat + 2 ^ 32 * (readU32 data (offset + 4)).toNat

/-- `PredicationAllows`: the predicate is read at replay; what cannot be read skips. -/
def predicationAllows (memory : Memory) (state : BoundState) : Bool :=
  if state.predicationBuffer = none then true
  else
    match readBufferBytes device memory state.predicationBuffer state.predicationBufferOffset 8 with
    | none => false
    | some bytes =>
      match state.predicationOperation with
      | .equalZero => decide (readU64 bytes 0 = 0)
      | .notEqualZero => decide (readU64 bytes 0 ≠ 0)
      | .other _ => false

/-- The bound pipeline is a compute pipeline. -/
def currentPipelineIsCompute (state : BoundState) : Bool :=
  match getPipelineState device state with
  | none => false
  | some pipeline => decide (pipeline.type = .compute)

/-- One parameter of `ReplayWriteBufferImmediate`. -/
def writeImmediate (memory : Memory) (parameter : WriteBufferImmediateParameter) : Memory :=
  match device.bufferAt parameter.dest with
  | none => memory
  | some (resource, offset) =>
    match resource.allocation with
    | none => memory
    | some allocation =>
      updateContents memory allocation (resource.heapOffset + offset) (writeU32 parameter.value)

/-- The heaps of the record that are visible to shaders, by type. -/
def setDescriptorHeaps (state : BoundState) (heaps : List ObjectId) : BoundState :=
  heaps.foldl (fun state heap =>
      match device.descriptorHeap heap with
      | none => state
      | some descriptorHeap =>
        if descriptorHeap.shaderVisible then
          match descriptorHeap.type with
          | .cbvSrvUav => { state with cbvSrvUavHeap := some heap }
          | .sampler => { state with samplerHeap := some heap }
          | .other => state
        else state)
    { state with cbvSrvUavHeap := none, samplerHeap := none }

/-! ## The commands of an indirect buffer -/

/-- Bytes of one argument in the argument buffer. -/
def indirectArgumentByteSize : IndirectArgument → Nat
  | .draw => 16
  | .drawIndexed => 20
  | .dispatch => 12
  | .vertexBufferView _ => 16
  | .indexBufferView => 16
  | .constant _ _ num32BitValuesToSet => 4 * num32BitValuesToSet % 2 ^ 32
  | .constantBufferView _ => 8
  | .shaderResourceView _ => 8
  | .unorderedAccessView _ => 8
  | .other _ => 0

/-- `D3D12_INDIRECT_ARGUMENT_TYPE` with root arguments. -/
def IndirectArgument.isRoot : IndirectArgument → Bool
  | .constant .. => true
  | .constantBufferView _ => true
  | .shaderResourceView _ => true
  | .unorderedAccessView _ => true
  | _ => false

/-- The signature changes root arguments, so it needs a root signature. -/
def requiresRootSignature (arguments : List IndirectArgument) : Bool :=
  arguments.any IndirectArgument.isRoot

/-- The commands that the GPU can fetch its arguments for. -/
inductive DirectIndirectOperation where
  | draw
  | drawIndexed
  | dispatch
deriving DecidableEq

/-- The operation of a signature with one argument. -/
def getDirectIndirectOperation : List IndirectArgument → Option DirectIndirectOperation
  | [.draw] => some .draw
  | [.drawIndexed] => some .drawIndexed
  | [.dispatch] => some .dispatch
  | _ => none

/-- What one argument of an indirect command does. -/
inductive IndirectCommand where
  | draw (record : DrawInstancedRecord)
  | drawIndexed (record : DrawIndexedInstancedRecord)
  | dispatch (record : DispatchRecord)
  | vertexBuffer (slot : Nat) (view : VertexBufferView)
  | indexBuffer (view : IndexBufferView)
  | rootConstants (record : RootConstantsRecord)
  | rootDescriptor (record : RootDescriptorRecord)

/-- The case of an argument in the CPU fallback, on the bytes at its offset. -/
def indirectCommand (compute : Bool) (bytes : List Byte) (offset : Nat) :
    IndirectArgument → Option IndirectCommand
  | .draw => some <| .draw
    ⟨(readU32 bytes offset).toNat, (readU32 bytes (offset + 4)).toNat,
      (readU32 bytes (offset + 8)).toNat, (readU32 bytes (offset + 12)).toNat⟩
  | .drawIndexed => some <| .drawIndexed
    ⟨(readU32 bytes offset).toNat, (readU32 bytes (offset + 4)).toNat,
      (readU32 bytes (offset + 8)).toNat, (readU32 bytes (offset + 12)).toInt,
      (readU32 bytes (offset + 16)).toNat⟩
  | .dispatch => some <| .dispatch
    ⟨(readU32 bytes offset).toNat, (readU32 bytes (offset + 4)).toNat,
      (readU32 bytes (offset + 8)).toNat⟩
  | .vertexBufferView slot => some <| .vertexBuffer slot
    ⟨readU64 bytes offset, (readU32 bytes (offset + 8)).toNat, (readU32 bytes (offset + 12)).toNat⟩
  | .indexBufferView => some <| .indexBuffer
    ⟨readU64 bytes offset, (readU32 bytes (offset + 8)).toNat, (readU32 bytes (offset + 12)).toNat⟩
  | .constant rootParameterIndex dstOffset count => some <| .rootConstants
    ⟨compute, rootParameterIndex, dstOffset,
      (List.range count).map fun i => readU32 bytes (offset + 4 * i)⟩
  | .constantBufferView index => some <| .rootDescriptor ⟨compute, .cbv, index,
      readU64 bytes offset⟩
  | .shaderResourceView index => some <| .rootDescriptor ⟨compute, .srv, index,
      readU64 bytes offset⟩
  | .unorderedAccessView index =>
    some <| .rootDescriptor ⟨compute, .uav, index, readU64 bytes offset⟩
  | .other _ => none

/-- The arguments of one command from an offset on, and whether the loop goes on behind them. -/
def indirectArguments (compute : Bool) (bytes : List Byte) :
    Nat → List IndirectArgument → List IndirectCommand × Bool
  | _, [] => ([], true)
  | offset, argument :: arguments =>
    let size := indirectArgumentByteSize argument
    if size = 0 ∨ offset + size > bytes.length then ([], false)
    else
      match indirectCommand compute bytes offset argument with
      | none => ([], false)
      | some command =>
        let (commands, goesOn) := indirectArguments compute bytes (offset + size) arguments
        (command :: commands, goesOn)

/-- The commands from `index` on; `remaining` of them. -/
def indirectCommandsFrom (memory : Memory) (compute : Bool) (record : ExecuteIndirectRecord)
    (signature : CommandSignature) : Nat → Nat → List IndirectCommand
  | _, 0 => []
  | index, remaining + 1 =>
    match readBufferBytes device memory record.argBuffer
        (record.argBufferOffset + index * signature.byteStride) signature.byteStride with
    | none => []
    | some bytes =>
      let (commands, goesOn) := indirectArguments compute bytes 0 signature.arguments
      if goesOn then
        commands ++ indirectCommandsFrom memory compute record signature (index + 1) remaining
      else commands

/-- The number of commands of the CPU fallback; `none` where the count cannot be read. -/
def fallbackCount (memory : Memory) (record : ExecuteIndirectRecord) : Option Nat :=
  match record.countBuffer with
  | none => some record.maxCommandCount
  | some countBuffer =>
    (readBufferBytes device memory (some countBuffer) record.countBufferOffset 4).map fun bytes =>
      min record.maxCommandCount (readU32 bytes 0).toNat

/-- What the loop of the CPU fallback replays, up to its end or to a return. The commands change
neither the memory nor the pipeline, so that all of them are known when it starts. -/
def indirectCommands (memory : Memory) (state : BoundState) (record : ExecuteIndirectRecord)
    (signature : CommandSignature) : List IndirectCommand :=
  match fallbackCount device memory record with
  | none => []
  | some count =>
    indirectCommandsFrom device memory (currentPipelineIsCompute device state) record signature 0
      count

end Replay

end Dxmt
