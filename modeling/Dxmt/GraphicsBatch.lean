import Dxmt.ReplayRecords

/-!
# Batched replay of draws: `QueueGraphicsPassCommand`, `FlushGraphicsPassBatch`

A draw is not emitted at its record: the queue keeps it in a batch, with a copy of the state, and
emits one render pass for the batch when a draw with other attachments or a record that flushes
comes. Read as draws, the passes give the stream that every draw in a pass of its own gives.

A dispatch flushes at its record, and where the arguments of an indirect one are left to the GPU;
the CPU fallback of `ExecuteIndirect` calls `ReplayDispatch` without a flush. The dispatch is then
before the draws that wait.

Result: `batched_eq_unbatched_iff` says for which lists the two streams are the same. A closure that
is emitted is the data that it captures. During a replay the mapped memory changes by immediate
writes only. Diagnostic readbacks are left out.

Source: `d3d12_command_queue.cpp:2409-2619, 2991-3257, 3277-3560, 5572-5841`.
-/

namespace Dxmt

namespace Replay

/-! ## What is emitted -/

/-- `WMTPrimitiveType`. -/
inductive PrimitiveType where
  | point
  | line
  | lineStrip
  | triangle
  | triangleStrip
deriving DecidableEq

/-- `GetPrimitiveType`: the Metal type of a `D3D12_PRIMITIVE_TOPOLOGY`. -/
def getPrimitiveType (topology : Nat) : Option PrimitiveType :=
  if topology = 1 then some .point
  else if topology = 2 then some .line
  else if topology = 3 then some .lineStrip
  else if topology = 4 then some .triangle
  else if topology = 5 then some .triangleStrip
  else none

/-- `DXGI_FORMAT_R32_UINT` and `DXGI_FORMAT_R16_UINT`. -/
def isSupportedIndexBufferFormat (format : Nat) : Bool :=
  decide (format = 57) || decide (format = 42)

/-- Bytes of an index: four for `DXGI_FORMAT_R32_UINT`. -/
def getIndexSize (format : Nat) : Nat :=
  if format = 42 then 4 else 2

/-- Where the indices of a draw are. -/
structure IndexSource where
  allocation : ObjectId
  indexSize : Nat
  offset : Nat

/-- Where the arguments of an indirect command are; with a count they are copied first. -/
structure IndirectSource where
  argBuffer : ObjectId
  argOffset : Nat
  countBuffer : Option ObjectId
  countOffset : Nat
  countedArgs : Option ObjectId
  countedOffset : Nat
  argumentSize : Nat
  commandIndex : Nat

/-- The arguments of a draw, in the record or in a buffer. -/
inductive DrawArguments where
  | instanced (record : DrawInstancedRecord)
  | indexed (indices : IndexSource) (record : DrawIndexedInstancedRecord)
  | instancedIndirect (source : IndirectSource)
  | indexedIndirect (indices : IndexSource) (source : IndirectSource)

/-- What a closure that encodes a draw captures. -/
structure EncodeDraw where
  metal : MetalGraphicsState
  pipeline : PipelineState
  replayState : BoundState
  primitive : PrimitiveType
  blendFactor : List Word
  stencilRef : Nat
  viewports : List Viewport
  scissors : List Rect
  arguments : DrawArguments

/-- The arguments of a dispatch, in the record or in a buffer. -/
inductive DispatchArguments where
  | direct (record : DispatchRecord)
  | indirect (source : IndirectSource)

/-- What a closure that encodes a dispatch captures; it reads no batch of the state. -/
structure EncodeDispatch where
  metal : MetalComputeState
  pipeline : PipelineState
  replayState : BoundState
  argumentBufferSize : Nat
  arguments : DispatchArguments

/-- One `emitcc`, or what a record of a transfer kind does. -/
inductive Emitted (Payload : Type) where
  | transfer (kind : TransferKind) (payload : Payload)
  | pass (attachments : RenderPassAttachments) (argumentBufferSize : Nat)
      (commands : List EncodeDraw)
  | countedPass (source : IndirectSource) (attachments : RenderPassAttachments)
      (argumentBufferSize : Nat) (command : EncodeDraw)
  | dispatch (command : EncodeDispatch)

/-- An operation of the encoders; a pass is the sequence of its draws. -/
inductive EncoderOp (Payload : Type) where
  | transfer (kind : TransferKind) (payload : Payload)
  | prepareCounted (source : IndirectSource)
  | draw (attachments : RenderPassAttachments) (command : EncodeDraw)
  | dispatch (command : EncodeDispatch)

variable {Payload : Type}

/-- `BeginRenderPass` starts no pass without an attachment. -/
def beginRenderPass (attachments : RenderPassAttachments) : Bool :=
  !(attachments.colors.isEmpty && attachments.depthStencil.isNone)

/-- What the encoder does for a pass: nothing where it cannot begin. -/
def passOps (attachments : RenderPassAttachments) (commands : List EncodeDraw) :
    List (EncoderOp Payload) :=
  if beginRenderPass attachments then commands.map (.draw attachments) else []

/-- What the encoder does for one emitted closure. -/
def Emitted.ops : Emitted Payload → List (EncoderOp Payload)
  | .transfer kind payload => [.transfer kind payload]
  | .pass attachments _ commands => passOps attachments commands
  | .countedPass source attachments _ command =>
    .prepareCounted source :: passOps attachments [command]
  | .dispatch command => [.dispatch command]

/-! ## The batch -/

/-- `ReplayGraphicsPassBatch`. -/
structure GraphicsPassBatch where
  attachments : RenderPassAttachments := {}
  commands : List EncodeDraw := []
  argumentBufferSize : Nat := 0
  active : Bool := false

/-- The state of a replay, with the mapped memory and what is in the chunk. -/
structure ReplayState (Payload : Type) where
  bound : BoundState := {}
  batch : GraphicsPassBatch := {}
  memory : Memory
  chunk : List (Emitted Payload) := []

/-- Two color attachments that one pass can serve. -/
def colorMatch (a b : RenderTargetAttachment) : Bool :=
  !(decide (a.slot ≠ b.slot) || decide (a.arrayLength ≠ b.arrayLength) ||
    decide (a.width ≠ b.width) || decide (a.height ≠ b.height) || decide (a.format ≠ b.format) ||
    decide (a.texture ≠ b.texture) || decide (a.view ≠ b.view))

/-- Two depth-stencil attachments that one pass can serve. -/
def depthStencilMatch : Option DepthStencilAttachment → Option DepthStencilAttachment → Bool
  | none, none => true
  | some a, some b =>
    !(decide (a.arrayLength ≠ b.arrayLength) || decide (a.width ≠ b.width) ||
      decide (a.height ≠ b.height) || decide (a.format ≠ b.format) ||
      decide (a.texture ≠ b.texture) || decide (a.view ≠ b.view))
  | _, _ => false

/-- `ReplayRenderPassAttachmentsMatch`. -/
def attachmentsMatch (lhs rhs : RenderPassAttachments) : Bool :=
  decide (lhs.colors.length = rhs.colors.length) &&
    (lhs.colors.zip rhs.colors).all (fun pair => colorMatch pair.1 pair.2) &&
    depthStencilMatch lhs.depthStencil rhs.depthStencil

/-- `HasPendingGraphicsPass`: draws wait in the batch. -/
def hasPendingGraphicsPass (state : ReplayState Payload) : Bool :=
  state.batch.active && !state.batch.commands.isEmpty

/-- `EmitCC` on the queue: appends a closure to the chunk. -/
def emit (state : ReplayState Payload) (emitted : Emitted Payload) : ReplayState Payload :=
  { state with chunk := state.chunk ++ [emitted] }

/-- `FlushGraphicsPassBatch`: the waiting draws become one pass. -/
def flushGraphicsPassBatch (state : ReplayState Payload) : ReplayState Payload :=
  if hasPendingGraphicsPass state then
    { emit state (.pass state.batch.attachments state.batch.argumentBufferSize
        state.batch.commands) with batch := {} }
  else state

/-- `QueueGraphicsPassCommand`: adds a draw, after flushing a batch with other attachments. -/
def queueGraphicsPassCommand (state : ReplayState Payload) (attachments : RenderPassAttachments)
    (argumentBufferSize : Nat) (command : EncodeDraw) : ReplayState Payload :=
  let state :=
    if state.batch.active && !attachmentsMatch state.batch.attachments attachments then
      flushGraphicsPassBatch state
    else state
  let batch :=
    if state.batch.active then state.batch
    else { state.batch with active := true, attachments := attachments, argumentBufferSize := 0 }
  { state with
    batch := { batch with
      argumentBufferSize := batch.argumentBufferSize + argumentBufferSize
      commands := batch.commands ++ [command] } }

/-- A pass of its own for one draw. -/
def emitSingleGraphicsPass (state : ReplayState Payload) (attachments : RenderPassAttachments)
    (argumentBufferSize : Nat) (command : EncodeDraw) : ReplayState Payload :=
  emit state (.pass attachments argumentBufferSize [command])

/-! ## Draws and dispatches -/

variable (device : Device)

/-- The slots are positions in the list of the record. -/
def buildColors (renderTargets : List Descriptor) : List RenderTargetAttachment :=
  renderTargets.zipIdx.filterMap fun (descriptor, slot) =>
    (device.renderTarget descriptor).map fun attachment => attachment slot

/-- `BuildRenderPassAttachments`: the bound targets as attachments. -/
def buildRenderPassAttachments (state : BoundState) : RenderPassAttachments where
  colors := buildColors device state.renderTargets
  depthStencil := state.depthStencil.bind device.depthStencil

/-- The viewports of a draw and its scissors, by default those of the viewports. -/
def resolveDynamicRasterRects (viewports : List Viewport) (scissors : List Rect) :
    Option (List Viewport × List Rect) :=
  if viewports.isEmpty then none
  else if scissors.isEmpty then some (viewports, viewports.map device.viewportRect)
  else some (viewports, scissors)

/-- A draw that is not skipped, with the attachments of its pass. -/
structure GraphicsDraw where
  attachments : RenderPassAttachments
  argumentBufferSize : Nat
  command : EncodeDraw

/-- What the four draws have in common. -/
def graphicsDraw (state : BoundState) (arguments : DrawArguments) : Option GraphicsDraw := do
  let pipeline ← getPipelineState device state
  let metal ← pipeline.metalGraphics
  let primitive ← getPrimitiveType state.topology
  let (viewports, scissors) ← resolveDynamicRasterRects device state.viewports state.scissors
  return {
    attachments := buildRenderPassAttachments device state
    argumentBufferSize := pipeline.graphicsArgumentBufferSize
    command := ⟨metal, pipeline, state, primitive, state.blendFactor, state.stencilRef, viewports,
      scissors, arguments⟩ }

/-- The index buffer from an index on; the product is one of 32 bits. -/
def indexSource (state : BoundState) (startIndexLocation : Nat) : Option IndexSource := do
  let view ← state.indexBuffer
  let (resource, resourceOffset) ← device.bufferAt view.bufferLocation
  let allocation ← resource.allocation
  if isSupportedIndexBufferFormat view.format then
    return ⟨allocation, getIndexSize view.format, resource.heapOffset + resourceOffset +
      startIndexLocation * getIndexSize view.format % 2 ^ 32⟩
  else none

/-- `ReplayDrawInstanced` up to its draw, or nothing where it is skipped. -/
def drawInstanced (memory : Memory) (state : BoundState) (record : DrawInstancedRecord) :
    Option GraphicsDraw :=
  if record.vertexCountPerInstance = 0 ∨ record.instanceCount = 0 then none
  else if predicationAllows device memory state then
    graphicsDraw device state (.instanced record)
  else none

/-- `ReplayDrawIndexedInstanced` up to its draw. -/
def drawIndexedInstanced (memory : Memory) (state : BoundState)
    (record : DrawIndexedInstancedRecord) : Option GraphicsDraw :=
  if record.indexCountPerInstance = 0 ∨ record.instanceCount = 0 ∨ state.indexBuffer.isNone then
      none
  else if predicationAllows device memory state then do
    let indices ← indexSource device state record.startIndexLocation
    graphicsDraw device state (.indexed indices record)
  else none

/-- The draw of an indirect command whose arguments stay on the GPU. -/
def drawInstancedIndirect (state : BoundState) (source : IndirectSource) : Option GraphicsDraw :=
  graphicsDraw device state (.instancedIndirect source)

/-- The same for an indexed draw. -/
def drawIndexedInstancedIndirect (state : BoundState) (source : IndirectSource) :
    Option GraphicsDraw := do
  let indices ← indexSource device state 0
  graphicsDraw device state (.indexedIndirect indices source)

/-- `ValidateComputeDispatch`: the limits on threads and groups. -/
def validateComputeDispatch (metal : MetalComputeState) (record : DispatchRecord) : Bool :=
  let threadsPerGroup := metal.width * metal.height * metal.depth
  !(decide (metal.width = 0) || decide (metal.height = 0) || decide (metal.depth = 0) ||
      decide (threadsPerGroup = 0)) &&
    !(decide (metal.width > 1024) || decide (metal.height > 1024) || decide (metal.depth > 64) ||
      decide (threadsPerGroup > 1024)) &&
    !(decide (record.x > 65535) || decide (record.y > 65535) || decide (record.z > 65535))

/-- A dispatch that is not skipped. -/
def dispatch (memory : Memory) (state : BoundState) (record : DispatchRecord) :
    Option EncodeDispatch :=
  if record.x = 0 ∨ record.y = 0 ∨ record.z = 0 then none
  else if predicationAllows device memory state then do
    let pipeline ← getPipelineState device state
    let metal ← pipeline.metalCompute
    if validateComputeDispatch metal record then
      return ⟨metal, pipeline, state, pipeline.computeArgumentBufferSize, .direct record⟩
    else none
  else none

/-- The dispatch of an indirect command whose arguments stay on the GPU. -/
def dispatchIndirect (state : BoundState) (source : IndirectSource) : Option EncodeDispatch := do
  let pipeline ← getPipelineState device state
  let metal ← pipeline.metalCompute
  return ⟨metal, pipeline, state, pipeline.computeArgumentBufferSize, .indirect source⟩

/-! ## Replay -/

/-- The end of a draw; `batching` is `D3D12ReplayGraphicsBatchingEnabled`. -/
def replayDraw (batching : Bool) (state : ReplayState Payload) :
    Option GraphicsDraw → ReplayState Payload
  | none => state
  | some draw =>
    if batching then
      queueGraphicsPassCommand state draw.attachments draw.argumentBufferSize draw.command
    else
      emitSingleGraphicsPass (flushGraphicsPassBatch state) draw.attachments
        draw.argumentBufferSize draw.command

/-- The end of an indirect draw; one with a count is not batched. -/
def replayIndirectDraw (batching : Bool) (state : ReplayState Payload) (source : IndirectSource) :
    Option GraphicsDraw → ReplayState Payload
  | none => state
  | some draw =>
    if source.countBuffer.isSome then
      emit (flushGraphicsPassBatch state)
        (.countedPass source draw.attachments draw.argumentBufferSize draw.command)
    else replayDraw batching state (some draw)

/-- Emits the dispatch where there is one. -/
def replayDispatch (state : ReplayState Payload) : Option EncodeDispatch → ReplayState Payload
  | none => state
  | some command => emit state (.dispatch command)

/-- The buffers of the direct path; `none` where it returns. -/
def directSource (record : ExecuteIndirectRecord) (signature : CommandSignature) (size : Nat) :
    Option (Nat → IndirectSource) := do
  if record.maxCommandCount = 0 then none
  if size = 0 ∨ signature.byteStride < size then none
  let argResource ← getResource device record.argBuffer
  if validateBufferRange argResource record.argBufferOffset
      ((record.maxCommandCount - 1) * signature.byteStride + size) = false then none
  let source : Nat → IndirectSource := fun index =>
    { argBuffer := argResource.id
      argOffset := argResource.heapOffset + record.argBufferOffset + index * signature.byteStride
      countBuffer := none
      countOffset := 0
      countedArgs := none
      countedOffset := index * size
      argumentSize := size
      commandIndex := index }
  match record.countBuffer with
  | none => return source
  | some countBuffer =>
    let countResource ← device.resource countBuffer
    if validateBufferRange countResource record.countBufferOffset 4 = false then none
    let countedArgs ← device.newBuffer (record.maxCommandCount * size)
    return fun index =>
      { source index with
        countBuffer := some countResource.id
        countOffset := countResource.heapOffset + record.countBufferOffset
        countedArgs := some countedArgs }

/-- One round of the direct path. -/
def replayDirectCommand (batching : Bool) (operation : DirectIndirectOperation)
    (state : ReplayState Payload) (source : IndirectSource) : ReplayState Payload :=
  match operation with
  | .draw =>
    replayIndirectDraw batching state source (drawInstancedIndirect device state.bound source)
  | .drawIndexed =>
    replayIndirectDraw batching state source
      (drawIndexedInstancedIndirect device state.bound source)
  | .dispatch =>
    replayDispatch (flushGraphicsPassBatch state) (dispatchIndirect device state.bound source)

/-- `ExecuteIndirect` on the GPU: one command whose arguments are the buffer's. -/
def replayExecuteIndirectDirect (batching : Bool) (state : ReplayState Payload)
    (record : ExecuteIndirectRecord) (signature : CommandSignature)
    (operation : DirectIndirectOperation) : ReplayState Payload :=
  match directSource device record signature
      ((signature.arguments.head?.map indirectArgumentByteSize).getD 0) with
  | none => state
  | some source =>
    ((List.range record.maxCommandCount).map source).foldl
      (replayDirectCommand device batching operation) state

/-- One argument of a command in the CPU fallback. -/
def replayIndirectCommand (batching : Bool) (state : ReplayState Payload) :
    IndirectCommand → ReplayState Payload
  | .draw record => replayDraw batching state (drawInstanced device state.memory state.bound record)
  | .drawIndexed record =>
    replayDraw batching state (drawIndexedInstanced device state.memory state.bound record)
  | .dispatch record => replayDispatch state (dispatch device state.memory state.bound record)
  | .vertexBuffer slot view =>
    { state with
      bound := { state.bound with
        vertexBuffers := storeVertexBuffers slot [view] state.bound.vertexBuffers } }
  | .indexBuffer view => { state with bound := { state.bound with indexBuffer := some view } }
  | .rootConstants record => { state with bound := storeRootConstants state.bound record }
  | .rootDescriptor record => { state with bound := storeRootDescriptor state.bound record }

/-- Which way `ReplayExecuteIndirect` takes. -/
inductive IndirectPath where
  | skipped
  | direct (signature : CommandSignature) (operation : DirectIndirectOperation)
  | cpuFallback (signature : CommandSignature)

/-- Which way `ReplayExecuteIndirect` takes. -/
def indirectPath (memory : Memory) (state : BoundState) (record : ExecuteIndirectRecord) :
    IndirectPath :=
  if predicationAllows device memory state then
    match record.commandSignature.bind device.commandSignature with
    | none => .skipped
    | some signature =>
      if signature.byteStride = 0 ∨ signature.arguments.isEmpty then .skipped
      else if requiresRootSignature signature.arguments && signature.rootSignature.isNone then
        .skipped
      else
        match getDirectIndirectOperation signature.arguments with
        | some operation => .direct signature operation
        | none => .cpuFallback signature
  else .skipped

/-- `ReplayExecuteIndirect`. -/
def replayExecuteIndirect (batching : Bool) (state : ReplayState Payload)
    (record : ExecuteIndirectRecord) : ReplayState Payload :=
  match indirectPath device state.memory state.bound record with
  | .skipped => state
  | .direct signature operation =>
    replayExecuteIndirectDirect device batching state record signature operation
  | .cpuFallback signature =>
    (indirectCommands device state.memory state.bound record signature).foldl
      (replayIndirectCommand device batching) state

/-- The state that a record without commands sets. -/
def setState (state : BoundState) : Record Payload → BoundState
  | .pipelineState pipelineState => { state with pipelineState := pipelineState }
  | .primitiveTopology topology => { state with topology := topology }
  | .viewport viewports => { state with viewports := viewports }
  | .scissor rects => { state with scissors := rects }
  | .blendFactor blendFactor => { state with blendFactor := blendFactor }
  | .stencilRef stencilRef => { state with stencilRef := stencilRef }
  | .renderTargets renderTargets depthStencil =>
    { state with renderTargets := renderTargets, depthStencil := depthStencil }
  | .descriptorHeaps heaps => setDescriptorHeaps device state heaps
  | .vertexBuffers startSlot views =>
    { state with vertexBuffers := storeVertexBuffers startSlot views state.vertexBuffers }
  | .indexBuffer view => { state with indexBuffer := view }
  | .rootSignature true rootSignature => { state with computeRootSignature := rootSignature }
  | .rootSignature false rootSignature => { state with graphicsRootSignature := rootSignature }
  | .rootDescriptorTable true index base =>
    { state with computeTables := insert state.computeTables index (some base) }
  | .rootDescriptorTable false index base =>
    { state with graphicsTables := insert state.graphicsTables index (some base) }
  | .rootDescriptor record => storeRootDescriptor state record
  | .rootConstants record => storeRootConstants state record
  | .predication record =>
    { state with
      predicationBuffer := record.buffer
      predicationBufferOffset := record.bufferOffset
      predicationOperation := record.operation }
  | _ => state

/-- The state of a record, behind a flush for some of them. -/
def setBound (state : ReplayState Payload) (record : Record Payload) : ReplayState Payload :=
  { state with bound := setState device state.bound record }

/-- One record of a list; a record that is no draw flushes the batch first. -/
def replayRecord (batching : Bool) (state : ReplayState Payload) (record : Record Payload) :
    ReplayState Payload :=
  match record with
  | .transfer kind payload => emit (flushGraphicsPassBatch state) (.transfer kind payload)
  | .descriptorHeaps _ => setBound device (flushGraphicsPassBatch state) record
  | .rootSignature _ _ => setBound device (flushGraphicsPassBatch state) record
  | .predication _ => setBound device (flushGraphicsPassBatch state) record
  | .writeBufferImmediate parameters =>
    let state := flushGraphicsPassBatch state
    { state with memory := parameters.foldl (writeImmediate device) state.memory }
  | .executeIndirect record => replayExecuteIndirect device batching state record
  | .drawInstanced record =>
    replayDraw batching state (drawInstanced device state.memory state.bound record)
  | .drawIndexedInstanced record =>
    replayDraw batching state (drawIndexedInstanced device state.memory state.bound record)
  | .dispatch record =>
    let state := flushGraphicsPassBatch state
    replayDispatch state (dispatch device state.memory state.bound record)
  | _ => setBound device state record

/-- The records of a list in order. -/
def replayRecords (batching : Bool) (state : ReplayState Payload)
    (records : List (Record Payload)) :
    ReplayState Payload :=
  records.foldl (replayRecord device batching) state

/-- `ReplayCommandRecords`, on a memory. -/
def replayCommandRecords (batching : Bool) (memory : Memory) (records : List (Record Payload)) :
    ReplayState Payload :=
  flushGraphicsPassBatch (replayRecords device batching { memory := memory } records)

/-! ## The stream -/

/-- The operations of what was emitted. -/
def ReplayState.stream (state : ReplayState Payload) : List (EncoderOp Payload) :=
  state.chunk.flatMap Emitted.ops

/-- The draws that wait in the batch. -/
def ReplayState.pending (state : ReplayState Payload) : List (EncoderOp Payload) :=
  passOps state.batch.attachments state.batch.commands

/-- A batch is active exactly when it has draws. -/
def ReplayState.BatchOk (state : ReplayState Payload) : Prop :=
  state.batch.active = !state.batch.commands.isEmpty

variable {device} {state b u : ReplayState Payload} {batching : Bool}

@[simp]
theorem passOps_nil (attachments : RenderPassAttachments) :
    (passOps attachments [] : List (EncoderOp Payload)) = [] := by
  unfold passOps
  exact ite_self []

/-- Two runs of draws in one pass are the draws of two passes. -/
theorem passOps_append (attachments : RenderPassAttachments) (xs ys : List EncodeDraw) :
    (passOps attachments (xs ++ ys) : List (EncoderOp Payload)) =
      passOps attachments xs ++ passOps attachments ys := by
  unfold passOps
  split
  · exact List.map_append
  · rfl

/-- What is emitted is done last. -/
@[simp]
theorem stream_emit (state : ReplayState Payload) (emitted : Emitted Payload) :
    (emit state emitted).stream = state.stream ++ emitted.ops := by
  unfold ReplayState.stream emit
  rw [List.flatMap_append, List.flatMap_cons, List.flatMap_nil, List.append_nil]

@[simp]
theorem pending_emit (state : ReplayState Payload) (emitted : Emitted Payload) :
    (emit state emitted).pending = state.pending :=
  rfl

/-- A batch is active exactly while draws wait in it. -/
theorem hasPendingGraphicsPass_eq (h : state.BatchOk) :
    hasPendingGraphicsPass state = state.batch.active := by
  unfold hasPendingGraphicsPass
  rw [← h, Bool.and_self]

theorem pending_of_not_active (h : state.BatchOk) (hactive : state.batch.active = false) :
    state.batch.commands = [] := by
  rw [h, Bool.not_eq_false', List.isEmpty_iff] at hactive
  exact hactive

/-- What a flush leaves. -/
structure Flushed (state flushed : ReplayState Payload) : Prop where
  bound : flushed.bound = state.bound
  memory : flushed.memory = state.memory
  commands : flushed.batch.commands = []
  active : flushed.batch.active = false
  stream : flushed.stream = state.stream ++ state.pending

/-- A flush puts what waits at the end of the stream. -/
theorem flush_spec (h : state.BatchOk) : Flushed state (flushGraphicsPassBatch state) := by
  unfold flushGraphicsPassBatch
  rw [hasPendingGraphicsPass_eq h]
  split
  · exact ⟨rfl, rfl, rfl, rfl, stream_emit state _⟩
  · next hactive =>
    have hactive : state.batch.active = false := Bool.eq_false_iff.mpr hactive
    have hempty := pending_of_not_active h hactive
    refine ⟨rfl, rfl, hempty, hactive, ?_⟩
    unfold ReplayState.pending
    rw [hempty, passOps_nil, List.append_nil]

theorem Flushed.batchOk {flushed : ReplayState Payload} (h : Flushed state flushed) :
    flushed.BatchOk := by
  unfold ReplayState.BatchOk
  rw [h.commands, h.active]
  rfl

/-- After a flush nothing waits. -/
theorem Flushed.pending {flushed : ReplayState Payload} (h : Flushed state flushed) :
    flushed.pending = [] := by
  unfold ReplayState.pending
  rw [h.commands, passOps_nil]

/-- The comparison leaves out no field. -/
theorem colorMatch_iff {x y : RenderTargetAttachment} : colorMatch x y = true ↔ x = y := by
  cases x
  cases y
  simp [colorMatch]
  tauto

/-- The comparison leaves out no field. -/
theorem depthStencilMatch_iff {x y : Option DepthStencilAttachment} :
    depthStencilMatch x y = true ↔ x = y := by
  cases x with
  | none => cases y <;> simp [depthStencilMatch]
  | some x =>
    cases y with
    | none => simp [depthStencilMatch]
    | some y =>
      cases x
      cases y
      simp [depthStencilMatch]
      tauto

theorem zip_all_iff {xs ys : List RenderTargetAttachment} (hlength : xs.length = ys.length) :
    (xs.zip ys).all (fun pair => colorMatch pair.1 pair.2) = true ↔ xs = ys := by
  induction xs generalizing ys with
  | nil =>
    obtain rfl := List.length_eq_zero_iff.mp hlength.symm
    exact iff_of_true rfl rfl
  | cons x xs ih =>
    cases ys with
    | nil => cases hlength
    | cons y ys =>
      rw [List.zip_cons_cons, List.all_cons, Bool.and_eq_true, colorMatch_iff,
        ih (Nat.succ.inj hlength), List.cons.injEq]

/-- The comparison is of everything that a pass is started with. -/
theorem attachmentsMatch_iff {lhs rhs : RenderPassAttachments} :
    attachmentsMatch lhs rhs = true ↔ lhs = rhs := by
  unfold attachmentsMatch
  rw [Bool.and_eq_true, Bool.and_eq_true, decide_eq_true_eq, depthStencilMatch_iff]
  constructor
  · rintro ⟨⟨hlength, hcolors⟩, hdepth⟩
    cases lhs
    cases rhs
    exact congrArg₂ RenderPassAttachments.mk ((zip_all_iff hlength).mp hcolors) hdepth
  · rintro rfl
    exact ⟨⟨rfl, (zip_all_iff rfl).mpr rfl⟩, rfl⟩

/-- The draw comes behind everything that was emitted or waits. -/
structure Queued (state queued : ReplayState Payload) (attachments : RenderPassAttachments)
    (command : EncodeDraw) : Prop where
  bound : queued.bound = state.bound
  memory : queued.memory = state.memory
  batchOk : queued.BatchOk
  stream : queued.stream ++ queued.pending =
    state.stream ++ state.pending ++ passOps attachments [command]

/-- A queued draw is last, in the pass of its attachments. -/
theorem queue_spec (h : state.BatchOk) (attachments : RenderPassAttachments)
    (argumentBufferSize : Nat) (command : EncodeDraw) :
    Queued state (queueGraphicsPassCommand state attachments argumentBufferSize command)
      attachments command := by
  -- the batch that the draw joins has its attachments, or is not active
  obtain ⟨joined, hjoined, hbound, hmemory, hok, hstream, hattachments⟩ :
      ∃ joined, (if state.batch.active && !attachmentsMatch state.batch.attachments attachments then
          flushGraphicsPassBatch state else state) = joined ∧
        joined.bound = state.bound ∧ joined.memory = state.memory ∧ joined.BatchOk ∧
        joined.stream ++ joined.pending = state.stream ++ state.pending ∧
        (joined.batch.active = true → joined.batch.attachments = attachments) := by
    refine ⟨_, rfl, ?_⟩
    split
    · have hflush := flush_spec h
      refine ⟨hflush.bound, hflush.memory, hflush.batchOk, ?_, fun hactive => ?_⟩
      · rw [hflush.stream, hflush.pending, List.append_nil]
      · rw [hflush.active] at hactive
        cases hactive
    · next hcond =>
      refine ⟨rfl, rfl, h, rfl, fun hactive => ?_⟩
      rw [hactive, Bool.true_and, Bool.not_eq_true', Bool.not_eq_false] at hcond
      exact attachmentsMatch_iff.mp hcond
  unfold queueGraphicsPassCommand
  dsimp only
  rw [hjoined]
  by_cases hactive : joined.batch.active = true
  · rw [if_pos hactive]
    refine ⟨hbound, hmemory, ?_, ?_⟩
    · unfold ReplayState.BatchOk
      simp [hactive]
    · unfold ReplayState.pending at hstream ⊢
      rw [hattachments hactive] at hstream
      show joined.stream ++ passOps joined.batch.attachments (joined.batch.commands ++
          [command]) = _
      rw [hattachments hactive, passOps_append, ← List.append_assoc, hstream]
  · have hactive : joined.batch.active = false := Bool.eq_false_iff.mpr hactive
    have hempty := pending_of_not_active hok hactive
    rw [if_neg (Bool.eq_false_iff.mp hactive)]
    refine ⟨hbound, hmemory, ?_, ?_⟩
    · unfold ReplayState.BatchOk
      simp
    · unfold ReplayState.pending at hstream ⊢
      rw [hempty, passOps_nil, List.append_nil] at hstream
      show joined.stream ++ passOps attachments (joined.batch.commands ++ [command]) = _
      rw [hempty, List.nil_append, hstream]

/-! ## The simulation -/

/-- A batched replay and an unbatched one: they agree but for the draws that wait in the batch. -/
structure Simulates (b u : ReplayState Payload) : Prop where
  bound : b.bound = u.bound
  memory : b.memory = u.memory
  batchOk : b.BatchOk
  commands : u.batch.commands = []
  active : u.batch.active = false
  stream : b.stream ++ b.pending = u.stream

theorem Simulates.batchOk_right (h : Simulates b u) : u.BatchOk := by
  unfold ReplayState.BatchOk
  rw [h.commands, h.active]
  rfl

theorem Simulates.pending_right (h : Simulates b u) : u.pending = [] := by
  unfold ReplayState.pending
  rw [h.commands, passOps_nil]

/-- Both replays have the same state behind a flush, and no draw waits. -/
theorem Simulates.flush (h : Simulates b u) :
    Simulates (flushGraphicsPassBatch b) (flushGraphicsPassBatch u) ∧
      (flushGraphicsPassBatch b).pending = [] := by
  have hb := flush_spec h.batchOk
  have hu := flush_spec h.batchOk_right
  refine ⟨⟨?_, ?_, hb.batchOk, hu.commands, hu.active, ?_⟩, hb.pending⟩
  · rw [hb.bound, hu.bound, h.bound]
  · rw [hb.memory, hu.memory, h.memory]
  · rw [hb.pending, hb.stream, hu.stream, h.pending_right, h.stream, List.append_nil]

/-- Without draws that wait, both replays emit the same. -/
theorem Simulates.emit (h : Simulates b u) (hpending : b.pending = []) (emitted : Emitted Payload) :
    Simulates (Replay.emit b emitted) (Replay.emit u emitted) := by
  refine ⟨h.bound, h.memory, h.batchOk, h.commands, h.active, ?_⟩
  have hstream := h.stream
  rw [hpending, List.append_nil] at hstream
  rw [pending_emit, stream_emit, stream_emit, hpending, List.append_nil, hstream]

theorem Simulates.withBound (h : Simulates b u) (bound : BoundState) :
    Simulates { b with bound := bound } { u with bound := bound } :=
  ⟨rfl, h.memory, h.batchOk, h.commands, h.active, h.stream⟩

theorem Simulates.withMemory (h : Simulates b u) (memory : Memory) :
    Simulates { b with memory := memory } { u with memory := memory } :=
  ⟨h.bound, rfl, h.batchOk, h.commands, h.active, h.stream⟩

/-- A draw waits on the one side and is emitted on the other. -/
theorem Simulates.replayDraw (h : Simulates b u) (draw : Option GraphicsDraw) :
    Simulates (Replay.replayDraw true b draw) (Replay.replayDraw false u draw) := by
  cases draw with
  | none => exact h
  | some draw =>
    have hqueued := queue_spec h.batchOk draw.attachments draw.argumentBufferSize draw.command
    have hu := flush_spec h.batchOk_right
    show Simulates (queueGraphicsPassCommand b _ _ _)
      (emitSingleGraphicsPass (flushGraphicsPassBatch u) _ _ _)
    refine ⟨?_, ?_, hqueued.batchOk, hu.commands, hu.active, ?_⟩
    · exact hqueued.bound.trans (h.bound.trans hu.bound.symm)
    · exact hqueued.memory.trans (h.memory.trans hu.memory.symm)
    · unfold emitSingleGraphicsPass
      rw [hqueued.stream, stream_emit, hu.stream, h.pending_right, h.stream, List.append_nil]
      rfl

/-- A counted draw is emitted on both sides, after a flush. -/
theorem Simulates.replayIndirectDraw (h : Simulates b u) (source : IndirectSource)
    (draw : Option GraphicsDraw) :
    Simulates (Replay.replayIndirectDraw true b source draw)
      (Replay.replayIndirectDraw false u source draw) := by
  cases draw with
  | none => exact h
  | some draw =>
    unfold Replay.replayIndirectDraw
    dsimp only
    split
    · exact h.flush.1.emit h.flush.2 _
    · exact h.replayDraw (some draw)

/-- A dispatch is in order where nothing waits. -/
theorem Simulates.replayDispatch (h : Simulates b u) (command : Option EncodeDispatch)
    (hpending : command = none ∨ b.pending = []) :
    Simulates (Replay.replayDispatch b command) (Replay.replayDispatch u command) := by
  cases command with
  | none => exact h
  | some command => exact h.emit (hpending.resolve_left (by simp)) _

/-- A command whose arguments stay on the GPU. -/
theorem Simulates.replayDirectCommand (h : Simulates b u) (operation : DirectIndirectOperation)
    (source : IndirectSource) :
    Simulates (Replay.replayDirectCommand device true operation b source)
      (Replay.replayDirectCommand device false operation u source) := by
  unfold Replay.replayDirectCommand
  rw [h.bound]
  cases operation with
  | draw => exact h.replayIndirectDraw source _
  | drawIndexed => exact h.replayIndirectDraw source _
  | dispatch => exact h.flush.1.replayDispatch _ (.inr h.flush.2)

/-! ## Order -/

/-- Every round of a loop meets the condition. -/
def FoldInOrder {α : Type} (f : ReplayState Payload → α → ReplayState Payload)
    (condition : ReplayState Payload → α → Prop) : ReplayState Payload → List α → Prop
  | _, [] => True
  | state, x :: xs => condition state x ∧ FoldInOrder f condition (f state x) xs

/-- A dispatch of the CPU fallback is skipped, or no draw waits at it. -/
def CommandInOrder (device : Device) (state : ReplayState Payload) : IndirectCommand → Prop
  | .dispatch record =>
    dispatch device state.memory state.bound record = none ∨ state.pending = []
  | _ => True

/-- Every command of the path leaves its operations in order. -/
def PathInOrder (device : Device) (state : ReplayState Payload) (record : ExecuteIndirectRecord) :
    IndirectPath → Prop
  | .cpuFallback signature =>
    FoldInOrder (replayIndirectCommand device true) (CommandInOrder device) state
      (indirectCommands device state.memory state.bound record signature)
  | _ => True

/-- The dispatches of the CPU fallback in a record are in order. -/
def RecordInOrder (device : Device) (state : ReplayState Payload) : Record Payload → Prop
  | .executeIndirect record =>
    PathInOrder device state record (indirectPath device state.memory state.bound record)
  | _ => True

/-- The dispatches of the CPU fallback in the records are in order. -/
def InOrder (device : Device) (state : ReplayState Payload) (records : List (Record Payload)) :
    Prop :=
  FoldInOrder (replayRecord device true) (RecordInOrder device) state records

/-- The streams have different operations behind a common front. -/
def Diverges (b u : ReplayState Payload) : Prop :=
  ∃ front op op' back back', b.stream = front ++ op :: back ∧ u.stream = front ++ op' :: back' ∧
    op ≠ op'

/-- Nothing that was emitted is taken back. -/
def Grows (state state' : ReplayState Payload) : Prop :=
  state.stream <+: state'.stream

/-- Streams that have parted do not meet again. -/
theorem Diverges.grows {b' u' : ReplayState Payload} (h : Diverges b u) (hb : Grows b b')
    (hu : Grows u u') : Diverges b' u' := by
  obtain ⟨front, op, op', back, back', hbstream, hustream, hne⟩ := h
  obtain ⟨restb, hrestb⟩ := hb
  obtain ⟨restu, hrestu⟩ := hu
  refine ⟨front, op, op', back ++ restb, back' ++ restu, ?_, ?_, hne⟩
  · rw [← hrestb, hbstream, List.append_assoc, List.cons_append]
  · rw [← hrestu, hustream, List.append_assoc, List.cons_append]

/-- Streams that have parted differ. -/
theorem Diverges.stream_ne (h : Diverges b u) : b.stream ≠ u.stream := by
  obtain ⟨front, op, op', back, back', hb, hu, hne⟩ := h
  intro heq
  rw [hb, hu] at heq
  exact hne (List.cons.inj (List.append_cancel_left heq)).1

theorem Grows.refl (state : ReplayState Payload) : Grows state state :=
  List.prefix_rfl

theorem Grows.trans {s₁ s₂ s₃ : ReplayState Payload} (h : Grows s₁ s₂) (h' : Grows s₂ s₃) :
    Grows s₁ s₃ :=
  List.IsPrefix.trans h h'

theorem grows_emit (state : ReplayState Payload) (emitted : Emitted Payload) :
    Grows state (emit state emitted) :=
  ⟨emitted.ops, (stream_emit state emitted).symm⟩

theorem grows_flush (state : ReplayState Payload) : Grows state (flushGraphicsPassBatch state) := by
  unfold flushGraphicsPassBatch
  split
  · exact grows_emit state _
  · exact Grows.refl state

/-- Queueing a draw takes nothing back. -/
theorem grows_queue (state : ReplayState Payload) (attachments : RenderPassAttachments)
    (argumentBufferSize : Nat) (command : EncodeDraw) :
    Grows state (queueGraphicsPassCommand state attachments argumentBufferSize command) := by
  unfold queueGraphicsPassCommand
  dsimp only
  split
  · exact grows_flush state
  · exact Grows.refl state

theorem grows_replayDraw (batching : Bool) (state : ReplayState Payload)
    (draw : Option GraphicsDraw) : Grows state (replayDraw batching state draw) := by
  unfold replayDraw
  split
  · exact Grows.refl state
  · split
    · exact grows_queue state _ _ _
    · exact (grows_flush state).trans (grows_emit _ _)

theorem grows_replayIndirectDraw (batching : Bool) (state : ReplayState Payload)
    (source : IndirectSource) (draw : Option GraphicsDraw) :
    Grows state (replayIndirectDraw batching state source draw) := by
  unfold replayIndirectDraw
  split
  · exact Grows.refl state
  · split
    · exact (grows_flush state).trans (grows_emit _ _)
    · exact grows_replayDraw batching state _

theorem grows_replayDispatch (state : ReplayState Payload) (command : Option EncodeDispatch) :
    Grows state (replayDispatch state command) := by
  unfold replayDispatch
  split
  · exact Grows.refl state
  · exact grows_emit state _

theorem grows_foldl {α : Type} {f : ReplayState Payload → α → ReplayState Payload}
    (hstep : ∀ state x, Grows state (f state x)) (xs : List α) (state : ReplayState Payload) :
    Grows state (xs.foldl f state) := by
  induction xs generalizing state with
  | nil => exact Grows.refl state
  | cons x xs ih => exact (hstep state x).trans (ih (f state x))

theorem grows_replayDirectCommand (batching : Bool) (operation : DirectIndirectOperation)
    (state : ReplayState Payload) (source : IndirectSource) :
    Grows state (replayDirectCommand device batching operation state source) := by
  unfold replayDirectCommand
  cases operation with
  | draw => exact grows_replayIndirectDraw batching state _ _
  | drawIndexed => exact grows_replayIndirectDraw batching state _ _
  | dispatch => exact (grows_flush state).trans (grows_replayDispatch _ _)

theorem grows_replayIndirectCommand (batching : Bool) (state : ReplayState Payload)
    (command : IndirectCommand) :
    Grows state (replayIndirectCommand device batching state command) := by
  cases command with
  | draw record => exact grows_replayDraw batching state _
  | drawIndexed record => exact grows_replayDraw batching state _
  | dispatch record => exact grows_replayDispatch state _
  | vertexBuffer slot view => exact Grows.refl state
  | indexBuffer view => exact Grows.refl state
  | rootConstants record => exact Grows.refl state
  | rootDescriptor record => exact Grows.refl state

/-- An indirect record takes nothing back. -/
theorem grows_replayExecuteIndirect (batching : Bool) (state : ReplayState Payload)
    (record : ExecuteIndirectRecord) :
    Grows state (replayExecuteIndirect device batching state record) := by
  unfold replayExecuteIndirect
  split
  · exact Grows.refl state
  · unfold replayExecuteIndirectDirect
    split
    · exact Grows.refl state
    · exact grows_foldl (grows_replayDirectCommand batching _) _ state
  · exact grows_foldl (grows_replayIndirectCommand batching) _ state

/-- A record takes nothing back. -/
theorem grows_replayRecord (batching : Bool) (state : ReplayState Payload)
    (record : Record Payload) : Grows state (replayRecord device batching state record) := by
  cases record with
  | transfer kind payload => exact (grows_flush state).trans (grows_emit _ _)
  | executeIndirect record => exact grows_replayExecuteIndirect batching state record
  | drawInstanced record => exact grows_replayDraw batching state _
  | drawIndexedInstanced record => exact grows_replayDraw batching state _
  | dispatch record => exact (grows_flush state).trans (grows_replayDispatch _ _)
  | descriptorHeaps heaps => exact grows_flush state
  | rootSignature compute rootSignature => exact grows_flush state
  | predication record => exact grows_flush state
  | writeBufferImmediate parameters => exact grows_flush state
  | _ => exact Grows.refl state

/-! ## Both replays -/

/-- A loop in order is simulated, and out of order the streams diverge for good. -/
theorem Simulates.foldl {α : Type} {f g : ReplayState Payload → α → ReplayState Payload}
    {condition : ReplayState Payload → α → Prop}
    (hstep : ∀ {b u x}, Simulates b u → condition b x → Simulates (f b x) (g u x))
    (hlate : ∀ {b u x}, Simulates b u → ¬ condition b x → Diverges (f b x) (g u x))
    (hf : ∀ state x, Grows state (f state x)) (hg : ∀ state x, Grows state (g state x))
    (xs : List α) (h : Simulates b u) :
    (FoldInOrder f condition b xs → Simulates (xs.foldl f b) (xs.foldl g u)) ∧
      (¬ FoldInOrder f condition b xs → Diverges (xs.foldl f b) (xs.foldl g u)) := by
  induction xs generalizing b u with
  | nil => exact ⟨fun _ => h, fun hne => absurd trivial hne⟩
  | cons x xs ih =>
    by_cases hx : condition b x
    · obtain ⟨hsimulates, hdiverges⟩ := ih (hstep h hx)
      exact ⟨fun hall => hsimulates hall.2, fun hne => hdiverges fun hall => hne ⟨hx, hall⟩⟩
    · refine ⟨fun hall => absurd hall.1 hx, fun _ => ?_⟩
      exact (hlate h hx).grows (grows_foldl hf xs _) (grows_foldl hg xs _)

/-- A dispatch that is emitted while draws wait comes before them. -/
theorem Simulates.late (h : Simulates b u) {command : EncodeDispatch} (hpending : b.pending ≠ []) :
    Diverges (Replay.replayDispatch b (some command)) (Replay.replayDispatch u (some command)) := by
  have hdraw : ∀ op ∈ b.pending, op ≠ .dispatch command := fun op hmem => by
    unfold ReplayState.pending passOps at hmem
    split at hmem
    · obtain ⟨draw, _, rfl⟩ := List.mem_map.mp hmem
      simp
    · cases hmem
  obtain ⟨op, rest, hcons⟩ := List.exists_cons_of_ne_nil hpending
  refine ⟨b.stream, .dispatch command, op, [], rest ++ [.dispatch command], ?_, ?_, ?_⟩
  · exact stream_emit b _
  · have hu : (Replay.emit u (.dispatch command)).stream = u.stream ++ [.dispatch command] :=
      stream_emit u _
    show (Replay.emit u (.dispatch command)).stream = _
    rw [hu, ← h.stream, hcons, List.append_assoc, List.cons_append]
  · exact (hdraw op (hcons ▸ List.mem_cons_self)).symm

/-- A command of the fallback is in order, or the streams part. -/
theorem Simulates.replayIndirectCommand (h : Simulates b u) {command : IndirectCommand} :
    (CommandInOrder device b command →
      Simulates (Replay.replayIndirectCommand device true b command)
        (Replay.replayIndirectCommand device false u command)) ∧
    (¬ CommandInOrder device b command →
      Diverges (Replay.replayIndirectCommand device true b command)
        (Replay.replayIndirectCommand device false u command)) := by
  have hset : ∀ f : BoundState → BoundState,
      Simulates { b with bound := f b.bound } { u with bound := f u.bound } := fun f =>
    h.bound ▸ h.withBound (f b.bound)
  cases command with
  | draw record =>
    unfold Replay.replayIndirectCommand
    rw [← h.bound, ← h.memory]
    exact ⟨fun _ => h.replayDraw _, fun hne => absurd trivial hne⟩
  | drawIndexed record =>
    unfold Replay.replayIndirectCommand
    rw [← h.bound, ← h.memory]
    exact ⟨fun _ => h.replayDraw _, fun hne => absurd trivial hne⟩
  | dispatch record =>
    unfold Replay.replayIndirectCommand
    rw [← h.bound, ← h.memory]
    refine ⟨fun horder => h.replayDispatch _ horder, fun hne => ?_⟩
    obtain ⟨hsome, hpending⟩ := not_or.mp hne
    obtain ⟨command, hcommand⟩ := Option.ne_none_iff_exists'.mp hsome
    dsimp only
    rw [hcommand]
    exact h.late hpending
  | vertexBuffer slot view =>
    refine ⟨fun _ => ?_, fun hne => absurd trivial hne⟩
    exact hset fun bound =>
      { bound with vertexBuffers := storeVertexBuffers slot [view] bound.vertexBuffers }
  | indexBuffer view =>
    refine ⟨fun _ => ?_, fun hne => absurd trivial hne⟩
    exact hset fun bound => { bound with indexBuffer := some view }
  | rootConstants record =>
    exact ⟨fun _ => hset fun bound => storeRootConstants bound record,
      fun hne => absurd trivial hne⟩
  | rootDescriptor record =>
    exact ⟨fun _ => hset fun bound => storeRootDescriptor bound record,
      fun hne => absurd trivial hne⟩

/-- An indirect record on the GPU is in order on both sides. -/
theorem Simulates.replayExecuteIndirectDirect (h : Simulates b u) (record : ExecuteIndirectRecord)
    (signature : CommandSignature) (operation : DirectIndirectOperation) :
    Simulates (Replay.replayExecuteIndirectDirect device true b record signature operation)
      (Replay.replayExecuteIndirectDirect device false u record signature operation) := by
  unfold Replay.replayExecuteIndirectDirect
  split
  · exact h
  · next source _ =>
    generalize (List.range record.maxCommandCount).map source = sources
    induction sources generalizing b u with
    | nil => exact h
    | cons source sources ih => exact ih (h.replayDirectCommand operation source)

/-- An indirect record is in order, or the streams part. -/
theorem Simulates.replayExecuteIndirect (h : Simulates b u) {record : ExecuteIndirectRecord} :
    (PathInOrder device b record (indirectPath device b.memory b.bound record) →
      Simulates (Replay.replayExecuteIndirect device true b record)
        (Replay.replayExecuteIndirect device false u record)) ∧
    (¬ PathInOrder device b record (indirectPath device b.memory b.bound record) →
      Diverges (Replay.replayExecuteIndirect device true b record)
        (Replay.replayExecuteIndirect device false u record)) := by
  unfold Replay.replayExecuteIndirect
  rw [← h.bound, ← h.memory]
  cases indirectPath device b.memory b.bound record with
  | skipped => exact ⟨fun _ => h, fun hne => absurd trivial hne⟩
  | direct signature operation =>
    exact ⟨fun _ => h.replayExecuteIndirectDirect record signature operation,
      fun hne => absurd trivial hne⟩
  | cpuFallback signature =>
    exact Simulates.foldl (f := Replay.replayIndirectCommand device true)
      (g := Replay.replayIndirectCommand device false) (fun h => h.replayIndirectCommand.1)
      (fun h => h.replayIndirectCommand.2) (grows_replayIndirectCommand true)
      (grows_replayIndirectCommand false) _ h

/-- One record: the replays stay in step, or their streams diverge at a late dispatch. -/
theorem Simulates.replayRecord (h : Simulates b u) {record : Record Payload} :
    (RecordInOrder device b record →
      Simulates (Replay.replayRecord device true b record)
        (Replay.replayRecord device false u record)) ∧
    (¬ RecordInOrder device b record →
      Diverges (Replay.replayRecord device true b record)
        (Replay.replayRecord device false u record)) := by
  have hset : ∀ {b u : ReplayState Payload}, Simulates b u → ∀ record : Record Payload,
      Simulates (setBound device b record) (setBound device u record) := fun h record => by
    unfold setBound
    rw [h.bound]
    exact h.withBound _
  cases record with
  | executeIndirect record => exact h.replayExecuteIndirect
  | transfer kind payload =>
    exact ⟨fun _ => h.flush.1.emit h.flush.2 _, fun hne => absurd trivial hne⟩
  | drawInstanced record =>
    unfold Replay.replayRecord
    rw [← h.bound, ← h.memory]
    exact ⟨fun _ => h.replayDraw _, fun hne => absurd trivial hne⟩
  | drawIndexedInstanced record =>
    unfold Replay.replayRecord
    rw [← h.bound, ← h.memory]
    exact ⟨fun _ => h.replayDraw _, fun hne => absurd trivial hne⟩
  | dispatch record =>
    unfold Replay.replayRecord
    dsimp only
    rw [← h.flush.1.bound, ← h.flush.1.memory]
    exact ⟨fun _ => h.flush.1.replayDispatch _ (.inr h.flush.2), fun hne => absurd trivial hne⟩
  | writeBufferImmediate parameters =>
    unfold Replay.replayRecord
    dsimp only
    rw [← h.flush.1.memory]
    exact ⟨fun _ => h.flush.1.withMemory _, fun hne => absurd trivial hne⟩
  | descriptorHeaps heaps => exact ⟨fun _ => hset h.flush.1 _, fun hne => absurd trivial hne⟩
  | rootSignature compute rootSignature =>
    exact ⟨fun _ => hset h.flush.1 _, fun hne => absurd trivial hne⟩
  | predication record => exact ⟨fun _ => hset h.flush.1 _, fun hne => absurd trivial hne⟩
  | _ => exact ⟨fun _ => hset h _, fun hne => absurd trivial hne⟩

/-- Both sides start from the same state. -/
theorem simulates_initial (memory : Memory) :
    Simulates ({ memory := memory } : ReplayState Payload) { memory := memory } :=
  ⟨rfl, rfl, rfl, rfl, rfl, rfl⟩

/-- **Batching.** The batched passes, read as draws, are the stream of the passes with one draw each
exactly when no dispatch of the CPU fallback is emitted while a draw waits. -/
theorem batched_eq_unbatched_iff (device : Device) (memory : Memory)
    (records : List (Record Payload)) :
    (replayCommandRecords device true memory records).stream =
        (replayCommandRecords device false memory records).stream ↔
      InOrder device { memory := memory } records := by
  have hrun := Simulates.foldl (f := replayRecord device true) (g := replayRecord device false)
    (fun h => h.replayRecord.1) (fun h => h.replayRecord.2) (grows_replayRecord true)
    (grows_replayRecord false) records (simulates_initial memory)
  unfold replayCommandRecords replayRecords
  constructor
  · intro heq
    by_contra hne
    exact ((hrun.2 hne).grows (grows_flush _) (grows_flush _)).stream_ne heq
  · intro horder
    obtain ⟨hflush, hpending⟩ := (hrun.1 horder).flush
    have hstream := hflush.stream
    rw [hpending, List.append_nil] at hstream
    exact hstream

/-- The operation is a dispatch. -/
def EncoderOp.isDispatch : EncoderOp Payload → Bool
  | .dispatch _ => true
  | _ => false

/-- A graphics pipeline 0, a compute pipeline 1, a render target, and a signature with one root
constant and a dispatch; every word of the buffers is one. -/
def mixedDevice : Device where
  pipelineState id :=
    if id = 0 then some ⟨.graphics, some ⟨0, none, 0⟩, none, 64, 0⟩
    else some ⟨.compute, none, some ⟨1, 8, 8, 1⟩, 0, 64⟩
  resource id := some ⟨id, 256, 0, some id⟩
  bufferAt _ := none
  descriptorHeap _ := none
  commandSignature _ := some ⟨16, [.constant 0 0 1, .dispatch], some 0⟩
  renderTarget _ := some fun slot => ⟨0, 0, slot, 1, 64, 64, 0⟩
  depthStencil _ := none
  mapped _ := true
  viewportRect _ := 0
  newBuffer _ := none

/-- Memory whose words are all one. -/
def onesMemory : Memory :=
  fun l => if l.2 % 4 = 0 then 1 else 0

/-- A draw, and a dispatch by the CPU fallback. -/
def mixedRecords : List (Record Unit) :=
  [.pipelineState (some 0), .viewport [0], .renderTargets [0] none,
    .drawInstanced ⟨3, 1, 0, 0⟩, .pipelineState (some 1),
    .executeIndirect ⟨some 0, 1, some 0, 0, none, 0⟩]

/-- The dispatch comes before the draw. -/
theorem dispatch_before_draw : ¬ ∀ (device : Device) (memory : Memory)
    (records : List (Record Unit)),
    (replayCommandRecords device true memory records).stream =
      (replayCommandRecords device false memory records).stream := fun h => by
  have hkinds := congrArg (List.map EncoderOp.isDispatch) (h mixedDevice onesMemory mixedRecords)
  exact absurd hkinds (by decide)

end Replay

end Dxmt
