import Dxmt.ContextState

/-!
# The calls of a D3D11 context: `SwitchToRenderEncoder`, `PreDraw`, `PreDispatch`

The functions that keep the pass that is open, the tables of a stage and the queue of buffer
updates, and on them the entry points of a context. What a call reads of the state that is left out
(a topology, an input layout, a viewport) or of Metal (a pipeline state that compiles) is an
argument of it.

`EncodingContext.step` is the other side: what the encoder makes of the commands, one after the
other, and `EncodingContext.accepts` is when a command is one for the pass that is open.

Source: `d3d11_context_impl.cpp:684-1247, 1280-1330, 1589-1905, 3289-3394, 3858-4345, 4370-5208,
5291-5355, 5568-5937`, `d3d11_context_imm.cpp:144-240, 327-430, 535-690`,
`d3d11_context_def.cpp:144-290, 434-478`.
-/

namespace Dxmt

/-- The stages whose tables a draw of the kind uploads. -/
def PipelineKind.stages : PipelineKind → List PipelineStage
  | .ordinary => [.vertex, .pixel]
  | .tessellation => [.vertex, .pixel, .hull, .domain]
  | .geometry => [.vertex, .pixel, .geometry]

/-- The stages that are made dirty when the kind of the pipeline changes. -/
def PipelineKind.dirtyStages : PipelineKind → List PipelineStage
  | .ordinary => [.vertex]
  | .tessellation => [.vertex, .hull, .domain]
  | .geometry => [.vertex, .geometry]

/-- What a draw reads besides the bindings and the shaders. -/
structure DrawInputs where
  /-- The topology has a primitive type, and an indexed draw has an index. -/
  valid : Bool := true
  indexed : Bool := false
  /-- `input_slot_mask` of the input layout. -/
  inputSlots : List Nat := []
  /-- The first viewport is not empty. -/
  viewport : Bool := true
  /-- `CreateTessellationMeshPipeline` succeeds. -/
  created : Bool := true
  /-- The pipeline has a pipeline state. -/
  compiled : Bool := true
  /-- `pBufferForArgs` of an indirect draw. -/
  indirect : Option (Option Nat) := none

/-- What a dispatch reads besides the bindings and the shader. -/
structure DispatchInputs where
  compiled : Bool := true
  indirect : Option (Option Nat) := none

namespace D3D11Context

/-! ## Switching passes -/

/-- The dirty bits that a new render encoder sets. -/
def setRenderDirty (c : D3D11Context) : D3D11Context :=
  (graphicsStages.foldl setStageDirty c).setVertexBuffersDirty.setOutputUAVsDirty

/-- A render target is bound in one of the slots in use. -/
def hasRenderTarget (c : D3D11Context) : Bool :=
  (List.range c.bindings.numRTVs).any fun slot => (c.bindings.rtvs slot).isSome

/-- `SwitchToRenderEncoder`; `false` when there is nothing to render to. -/
def switchToRenderEncoder (c : D3D11Context) (viewport : Bool) : D3D11Context × Bool :=
  match c.cmdbufState with
  | .renderPipelineReady _ => (c, true)
  | .renderEncoderActive => (c, true)
  | _ =>
    let c := (c.invalidateCurrentPass false).setRenderDirty
    if c.bindings.dsv.isNone && !c.hasRenderTarget &&
        (!(List.range uavSlotCount).any c.bindings.outputUAVs.testBound || !viewport) then
      (c, false)
    else
      ({ c.emitST .startRenderPass with
          cmdbufState := .renderEncoderActive
          previousRenderPipelineState := .renderEncoderActive },
        true)

/-- `SwitchToBlitEncoder`. -/
def switchToBlitEncoder (c : D3D11Context) (kind : BlitKind) : D3D11Context :=
  if c.cmdbufState = .blitEncoderActive kind then c
  else
    { (c.invalidateCurrentPass (kind != .blit)).emitST .startBlitPass with
      cmdbufState := .blitEncoderActive kind }

/-- `SwitchToComputeEncoder`. -/
def switchToComputeEncoder (c : D3D11Context) : D3D11Context :=
  match c.cmdbufState with
  | .computePipelineReady => c
  | .computeEncoderActive => c
  | _ =>
    { (((c.invalidateCurrentPass false).setStageDirty .compute).setComputeUAVsDirty).emitST
        .startComputePass with
      cmdbufState := .computeEncoderActive }

/-! ## The queue of buffer updates -/

/-- `HasPendingBufferUpdateFor`. -/
def hasPendingBufferUpdateFor (c : D3D11Context) (buffer : Nat) : Bool :=
  c.pendingBufferUpdates.any fun update => update.dst = buffer

/-- The waiting updates of a buffer. -/
def pendingFor (c : D3D11Context) (buffer : Nat) : List PendingBufferUpdate :=
  c.pendingBufferUpdates.filter fun update => update.dst = buffer

/-- `EmitPendingBufferUpdateBatchBlit` or the commands of `EmitPackedPendingBufferUpdateBatch`, and
`RemovePendingBufferUpdatesFor`. The copies of the updates are one command: those of a batch do not
overlap, and write what the last update of every byte has. -/
def emitBatch (c : D3D11Context) (op : EncoderOp) (buffer : Nat) : D3D11Context :=
  if c.hasPendingBufferUpdateFor buffer then
    { c with
      commands := c.commands ++
        [⟨op, c.cmdbufState, (c.pendingFor buffer).map PendingBufferUpdate.call, [], [buffer]⟩]
      pendingBufferUpdates := c.pendingBufferUpdates.filter fun update => update.dst ≠ buffer
      hasDirtyOp := if c.deferred then c.hasDirtyOp else true }
  else c

/-- `FlushPendingBufferUpdatesFor`. -/
def flushPendingBufferUpdatesFor (c : D3D11Context) (buffer : Nat) : D3D11Context :=
  if c.hasPendingBufferUpdateFor buffer then
    (c.switchToBlitEncoder .update).emitBatch .blit buffer
  else c

/-- `FlushPendingBufferUpdatesForMany`. -/
def flushPendingBufferUpdatesForMany (c : D3D11Context) (buffers : List Nat) : D3D11Context :=
  if buffers.any c.hasPendingBufferUpdateFor then
    buffers.foldl (fun c buffer => c.emitBatch .blit buffer) (c.switchToBlitEncoder .update)
  else c

/-- `FlushPendingBufferUpdatesForCompute`. -/
def flushPendingBufferUpdatesForCompute (c : D3D11Context) (buffer : Nat) : D3D11Context :=
  if c.hasPendingBufferUpdateFor buffer then
    (c.switchToComputeEncoder.emitBatch .emulated buffer).invalidateComputePipeline
  else c

/-- `FlushAllPendingBufferUpdates`: the buffer of the first update in the queue, until there is
none. -/
def flushAllPendingBufferUpdates (c : D3D11Context) : D3D11Context :=
  if c.pendingBufferUpdates = [] then c
  else
    (c.pendingBufferUpdates.map PendingBufferUpdate.dst).foldl
      (fun c buffer => c.emitBatch .blit buffer) (c.switchToBlitEncoder .update)

/-- The constant buffers in slots that the shader of the stage declares. -/
def shaderConstantBuffers (c : D3D11Context) (stage : PipelineStage) : List Nat :=
  match c.shaders stage with
  | none => []
  | some shader =>
    (c.constantBuffers stage).buffersMasked shader.constantBufferSlotMask fun entry =>
      some entry.buffer.id

/-- The buffers of the shader resource views in slots that the shader of the stage declares. -/
def shaderViewBuffers (c : D3D11Context) (stage : PipelineStage) : List Nat :=
  match c.shaders stage with
  | none => []
  | some shader => (c.bindings.srvs stage).buffersMasked shader.srvSlotMask D3D11View.buffer

/-- The buffers of the render targets in the first `n` slots. -/
def renderTargetBuffers (c : D3D11Context) (n : Nat) : List Nat :=
  (List.range n).filterMap fun slot => (c.bindings.rtvs slot).bind fun rtv => rtv.buffer

/-- What `DrawBindingsHavePendingNonConstantBufferUpdate` looks at. -/
def drawBindingBuffers (c : D3D11Context) : List Nat :=
  c.bindings.vertexBuffers.buffers vertexBufferSlotCount (fun entry => some entry.buffer.id) ++
    (c.bindings.indexBuffer.map D3D11Resource.id).toList ++
    graphicsStages.flatMap c.shaderViewBuffers ++
    c.renderTargetBuffers renderTargetCount ++
    c.bindings.outputUAVs.buffers uavSlotCount D3D11View.buffer ++
    c.bindings.streamOutput.buffers streamOutputSlotCount fun entry => some entry.buffer.id

/-- `FlushPendingBufferUpdatesForDrawBindings`. -/
def flushPendingBufferUpdatesForDrawBindings (c : D3D11Context) : D3D11Context :=
  if c.drawBindingBuffers.any c.hasPendingBufferUpdateFor then
    c.flushPendingBufferUpdatesForMany
      (c.drawBindingBuffers ++ graphicsStages.flatMap c.shaderConstantBuffers)
  else c

/-- What `ComputeBindingsHavePendingNonConstantBufferUpdate` looks at. -/
def computeBindingBuffers (c : D3D11Context) : List Nat :=
  (c.bindings.srvs .compute).buffers srvSlotCount D3D11View.buffer ++
    c.bindings.computeUAVs.buffers uavSlotCount D3D11View.buffer

/-- `FlushPendingBufferUpdatesForComputeBindings`. -/
def flushPendingBufferUpdatesForComputeBindings (c : D3D11Context) : D3D11Context :=
  if c.computeBindingBuffers.any c.hasPendingBufferUpdateFor then
    ((c.constantBuffers .compute).buffers constantBufferSlotCount (fun entry =>
        some entry.buffer.id) ++ c.computeBindingBuffers).foldl
      flushPendingBufferUpdatesForCompute c
  else c

/-! ## Pipelines -/

/-- What the three functions do once they have a pipeline. -/
def setRenderPipeline (c : D3D11Context) (kind : PipelineKind) (compiled : Bool) : D3D11Context :=
  let c :=
    { c.emitST (if compiled then .setRenderPipeline kind else .other) with
      cmdbufState := .renderPipelineReady kind }
  if c.previousRenderPipelineState = .renderPipelineReady kind then c
  else
    { kind.dirtyStages.foldl setStageDirty c.setVertexBuffersDirty with
      previousRenderPipelineState := .renderPipelineReady kind }

/-- `FinalizeTessellationRenderPipeline`. -/
def finalizeTessellationRenderPipeline (c : D3D11Context) (d : DrawInputs) :
    D3D11Context × Option PipelineKind :=
  if c.cmdbufState = .renderPipelineReady .tessellation then (c, some .tessellation)
  else
    match c.shaders .hull with
    | none => (c, none)
    | some hs =>
      if hs.outputPrimitive ≠ .triangle then (c.emitST .other, none)
      else if c.shaders .domain = none then (c, none)
      else if (c.shaders .geometry).any fun gs => !gs.gsPassThrough then (c.emitST .other, none)
      else
        match c.switchToRenderEncoder d.viewport with
        | (c, false) => (c, none)
        | (c, true) =>
          if d.created then (c.setRenderPipeline .tessellation d.compiled, some .tessellation)
          else (c, none)

/-- `FinalizeGeometryRenderPipeline`. -/
def finalizeGeometryRenderPipeline (c : D3D11Context) (d : DrawInputs) :
    D3D11Context × Option PipelineKind :=
  if c.cmdbufState = .renderPipelineReady .geometry then (c, some .geometry)
  else
    match c.switchToRenderEncoder d.viewport with
    | (c, false) => (c, none)
    | (c, true) => (c.setRenderPipeline .geometry d.compiled, some .geometry)

/-- `FinalizeCurrentRenderPipeline`; no kind is `DrawCallStatus::Invalid`. -/
def finalizeCurrentRenderPipeline (c : D3D11Context) (d : DrawInputs) :
    D3D11Context × Option PipelineKind :=
  if (c.shaders .hull).isSome then c.finalizeTessellationRenderPipeline d
  else if c.cmdbufState = .renderPipelineReady .ordinary then (c, some .ordinary)
  else if (c.shaders .geometry).any fun gs => !gs.gsPassThrough then
    c.finalizeGeometryRenderPipeline d
  else
    match c.switchToRenderEncoder d.viewport with
    | (c, false) => (c, none)
    | (c, true) => (c.setRenderPipeline .ordinary d.compiled, some .ordinary)

/-- What the three functions can end in. -/
inductive Finalized (c : D3D11Context) (d : DrawInputs) :
    D3D11Context × Option PipelineKind → Prop where
  | ready (kind : PipelineKind) (hstate : c.cmdbufState = .renderPipelineReady kind) :
    Finalized c d (c, some kind)
  | invalid : Finalized c d (c, none)
  | unsupported : Finalized c d (c.emitST .other, none)
  | noTarget (c' : D3D11Context) (hswitch : c.switchToRenderEncoder d.viewport = (c', false)) :
    Finalized c d (c', none)
  | notCreated (c' : D3D11Context) (hswitch : c.switchToRenderEncoder d.viewport = (c', true)) :
    Finalized c d (c', none)
  | set (c' : D3D11Context) (kind : PipelineKind)
    (hstate : c.cmdbufState ≠ .renderPipelineReady kind)
    (hswitch : c.switchToRenderEncoder d.viewport = (c', true)) :
    Finalized c d (c'.setRenderPipeline kind d.compiled, some kind)

theorem finalized_tessellation (c : D3D11Context) (d : DrawInputs) :
    Finalized c d (c.finalizeTessellationRenderPipeline d) := by
  unfold finalizeTessellationRenderPipeline
  split
  · next hstate => exact .ready .tessellation hstate
  · next hstate =>
    split
    · exact .invalid
    · split
      · exact .unsupported
      · split
        · exact .invalid
        · split
          · exact .unsupported
          · split
            · next c' hswitch => exact .noTarget c' hswitch
            · next c' hswitch =>
              split
              · exact .set c' .tessellation hstate hswitch
              · exact .notCreated c' hswitch

theorem finalized_geometry (c : D3D11Context) (d : DrawInputs) :
    Finalized c d (c.finalizeGeometryRenderPipeline d) := by
  unfold finalizeGeometryRenderPipeline
  split
  · next hstate => exact .ready .geometry hstate
  · next hstate =>
    split
    · next c' hswitch => exact .noTarget c' hswitch
    · next c' hswitch => exact .set c' .geometry hstate hswitch

/-- Whatever pipeline a draw needs, it is set inside a render pass or not at all. -/
theorem finalized (c : D3D11Context) (d : DrawInputs) :
    Finalized c d (c.finalizeCurrentRenderPipeline d) := by
  unfold finalizeCurrentRenderPipeline
  split
  · exact finalized_tessellation c d
  · split
    · next hstate => exact .ready .ordinary hstate
    · next hstate =>
      split
      · exact finalized_geometry c d
      · split
        · next c' hswitch => exact .noTarget c' hswitch
        · next c' hswitch => exact .set c' .ordinary hstate hswitch

theorem cmdbufState_foldl_setStageDirty (stages : List PipelineStage) (c : D3D11Context) :
    (stages.foldl setStageDirty c).cmdbufState = c.cmdbufState := by
  induction stages generalizing c with
  | nil => rfl
  | cons stage stages ih => exact ih _

/-- The pipeline that is set is the one that is ready. -/
theorem cmdbufState_setRenderPipeline (c : D3D11Context) (kind : PipelineKind) (compiled : Bool) :
    (c.setRenderPipeline kind compiled).cmdbufState = .renderPipelineReady kind := by
  unfold setRenderPipeline
  generalize (if compiled = true then EncoderOp.setRenderPipeline kind else EncoderOp.other) = op
  dsimp only
  split
  · rfl
  · exact cmdbufState_foldl_setStageDirty ..

/-- With a status, the pipeline is ready. -/
theorem finalized_state {c c' : D3D11Context} {d : DrawInputs} {kind : PipelineKind}
    (h : c.finalizeCurrentRenderPipeline d = (c', some kind)) :
    c'.cmdbufState = .renderPipelineReady kind := by
  have hf := finalized c d
  rw [h] at hf
  cases hf with
  | ready _ hstate => exact hstate
  | set c₁ _ _ _ => exact cmdbufState_setRenderPipeline c₁ kind d.compiled

/-- `FinalizeCurrentComputePipeline`. -/
def finalizeCurrentComputePipeline (c : D3D11Context) (compiled : Bool) : D3D11Context × Bool :=
  if c.cmdbufState = .computePipelineReady then (c, true)
  else
    let c := c.switchToComputeEncoder
    match c.shaders .compute with
    | none => (c, false)
    | some _ =>
      ({ c.emitST (if compiled then .setComputePipeline else .other) with
          cmdbufState := .computePipelineReady },
        true)

/-! ## Tables -/

/-- The unordered access views that a stage sees. -/
def uavs (c : D3D11Context) (stage : PipelineStage) : BindingSet D3D11View :=
  if stage = .compute then c.bindings.computeUAVs else c.bindings.outputUAVs

/-- The entry of a constant buffer: the buffer, and where the constants start. -/
def constantBufferEntry (c : D3D11Context) (stage : PipelineStage) (slot : Nat) :
    Option (D3D11Resource × Nat) :=
  ((c.constantBuffers stage).storage slot).map fun entry =>
    (entry.buffer, entry.firstConstant <<< 4)

/-- The entry of `ShaderResourceBindingSnapshot`. -/
def snapshot (c : D3D11Context) (stage : PipelineStage) (arg : ShaderArgument) : ArgumentBinding :=
  match arg.type with
  | .sampler => ((c.samplers stage).storage arg.slot).elim .empty .sampler
  | .srv => ((c.bindings.srvs stage).storage arg.slot).elim .empty .srv
  | .uav => .empty

/-- `DirtyConstantBuffer`, within the slots that the shader uses. -/
def dirtyCBuffer (c : D3D11Context) (stage : PipelineStage) (shader : ManagedShader) : Bool :=
  (c.constantBuffers stage).anyDirtyMasked shader.constantBufferSlotMask

/-- `DirtySampler`, within the slots that the shader uses. -/
def dirtySampler (c : D3D11Context) (stage : PipelineStage) (shader : ManagedShader) : Bool :=
  (c.samplers stage).anyDirtyMasked shader.samplerSlotMask

/-- `DirtyShaderResource`, within the slots that the shader uses. -/
def dirtySRV (c : D3D11Context) (stage : PipelineStage) (shader : ManagedShader) : Bool :=
  (c.bindings.srvs stage).anyDirtyMasked shader.srvSlotMask

/-- `UAVBound`: some slot that the shader uses holds a view. -/
def uavBound (c : D3D11Context) (stage : PipelineStage) (shader : ManagedShader) : Bool :=
  (c.uavs stage).anyBoundMasked shader.uavSlotMask

/-- The constant buffers of `UploadShaderStageResourceBinding`. -/
def uploadConstantBuffers (c : D3D11Context) (stage : PipelineStage) (kind : PipelineKind)
    (shader : ManagedShader) : D3D11Context :=
  { c.emitST (.encodeConstantBuffers stage kind
      (shader.constantBuffers.map fun slot => (slot, c.constantBufferEntry stage slot))) with
    constantBuffers :=
      Function.update c.constantBuffers stage (c.constantBuffers stage).clearDirty }

/-- The arguments of `UploadShaderStageResourceBinding`. -/
def uploadArguments (c : D3D11Context) (stage : PipelineStage) (kind : PipelineKind)
    (shader : ManagedShader) : D3D11Context :=
  let c :=
    { c.emitST (.encodeShaderResources stage kind
        (shader.arguments.map fun arg => (arg, c.snapshot stage arg))) with
      samplers := Function.update c.samplers stage (c.samplers stage).clearDirty
      bindings := c.bindings.setSRVs stage (c.bindings.srvs stage).clearDirty }
  if stage = .compute then
    { c with
      bindings := { c.bindings with computeUAVs := c.bindings.computeUAVs.clearDirty } }
  else if stage = .pixel then
    { c with bindings := { c.bindings with outputUAVs := c.bindings.outputUAVs.clearDirty } }
  else c

/-- `UploadShaderStageResourceBinding`; the flags are those before the constant buffers. -/
def uploadShaderStageResourceBinding (c : D3D11Context) (stage : PipelineStage)
    (kind : PipelineKind) : D3D11Context :=
  match c.shaders stage with
  | none => c
  | some shader =>
    let dirtyCBuffer := c.dirtyCBuffer stage shader
    let dirtySampler := c.dirtySampler stage shader
    let dirtySRV := c.dirtySRV stage shader
    let uavBound := c.uavBound stage shader
    if !dirtyCBuffer && !dirtySampler && !dirtySRV && !uavBound then c
    else
      let c :=
        if shader.constantBuffers ≠ [] ∧ dirtyCBuffer then c.uploadConstantBuffers stage kind shader
        else c
      if shader.arguments ≠ [] ∧ (dirtySampler || dirtySRV || uavBound) then
        c.uploadArguments stage kind shader
      else c

/-! ## Draws and dispatches -/

/-- `PreDraw`. -/
def preDraw (c : D3D11Context) (d : DrawInputs) : D3D11Context × Option PipelineKind :=
  let c := c.flushPendingBufferUpdatesForDrawBindings
  if d.indexed && c.bindings.indexBuffer.isNone then (c, none)
  else
    match c.finalizeCurrentRenderPipeline d with
    | (c, none) => (c, none)
    | (c, some status) =>
      let kind :=
        match c.cmdbufState with
        | .renderPipelineReady kind => kind
        | _ => .ordinary
      (kind.stages.foldl (fun c stage => c.uploadShaderStageResourceBinding stage kind) c,
        some status)

/-- `PreDispatch`. -/
def preDispatch (c : D3D11Context) (d : DispatchInputs) : D3D11Context × Bool :=
  match c.flushPendingBufferUpdatesForComputeBindings.finalizeCurrentComputePipeline d.compiled with
  | (c, false) => (c, false)
  | (c, true) => (c.uploadShaderStageResourceBinding .compute .ordinary, true)

/-- The buffers of the unordered access views in slots that the shader of the stage declares. -/
def shaderUAVBuffers (c : D3D11Context) (stage : PipelineStage) : List Nat :=
  match c.shaders stage with
  | none => []
  | some shader => (c.uavs stage).buffersMasked shader.uavSlotMask D3D11View.buffer

/-- The buffers that the shader of the stage reads. -/
def stageReads (c : D3D11Context) (stage : PipelineStage) : List Nat :=
  c.shaderConstantBuffers stage ++ c.shaderViewBuffers stage ++ c.shaderUAVBuffers stage

/-- The buffers that a draw reads. -/
def drawReads (c : D3D11Context) (d : DrawInputs) (kind : PipelineKind) : List Nat :=
  c.bindings.vertexBuffers.buffersMasked
      ((List.range vertexBufferSlotCount).filter (· ∈ d.inputSlots))
      (fun entry => some entry.buffer.id) ++
    (if d.indexed then (c.bindings.indexBuffer.map D3D11Resource.id).toList else []) ++
    kind.stages.flatMap c.stageReads ++
    c.renderTargetBuffers (min c.bindings.numRTVs renderTargetCount)

/-- The buffers that a draw writes. -/
def drawWrites (c : D3D11Context) (kind : PipelineKind) : List Nat :=
  kind.stages.flatMap c.shaderUAVBuffers ++
    c.renderTargetBuffers (min c.bindings.numRTVs renderTargetCount) ++
    if (c.shaders .geometry).isSome then
      c.bindings.streamOutput.buffers 1 fun entry => some entry.buffer.id
    else []

/-- `Draw`, `DrawIndexed`, and the instanced and the indirect ones; an indirect draw flushes its
arguments after `PreDraw`. -/
def draw (c : D3D11Context) (d : DrawInputs) : D3D11Context :=
  if d.valid then
    match c.preDraw d with
    | (c, none) => c
    | (c, some kind) =>
      match d.indirect with
      | none => c.emitOP (.draw kind) (c.drawReads d kind) (c.drawWrites kind)
      | some none => c
      | some (some buffer) =>
        let c := c.flushPendingBufferUpdatesFor buffer
        c.emitOP (.draw kind) (buffer :: c.drawReads d kind) (c.drawWrites kind)
  else c

/-- `Dispatch` and `DispatchIndirect`. -/
def dispatch (c : D3D11Context) (d : DispatchInputs) : D3D11Context :=
  match c.preDispatch d with
  | (c, false) => c
  | (c, true) =>
    match d.indirect with
    | none => c.emitOP .dispatch (c.stageReads .compute) (c.shaderUAVBuffers .compute)
    | some none => c
    | some (some buffer) =>
      let c := c.flushPendingBufferUpdatesFor buffer
      c.emitOP .dispatch (buffer :: c.stageReads .compute) (c.shaderUAVBuffers .compute)

/-! ## Clears and copies -/

/-- `ClearRenderTargetView`, of a view of a buffer or of a texture. -/
def clearRenderTargetView (c : D3D11Context) (buffer : Option Nat) : D3D11Context :=
  let c :=
    match buffer with
    | none => c
    | some buffer => c.flushPendingBufferUpdatesFor buffer
  (c.invalidateCurrentPass false).emitOP .passes [] buffer.toList

/-- `ClearDepthStencilView`, with clear flags. -/
def clearDepthStencilView (c : D3D11Context) : D3D11Context :=
  (c.invalidateCurrentPass false).emitOP .passes [] []

/-- `ClearUnorderedAccessViewUint` and `ClearUnorderedAccessViewFloat`. -/
def clearUnorderedAccessView (c : D3D11Context) (buffer : Option Nat) : D3D11Context :=
  let c :=
    match buffer with
    | none => c
    | some buffer => c.flushPendingBufferUpdatesFor buffer
  let c := (c.invalidateCurrentPass true).switchToComputeEncoder
  (c.emitOP .emulated [] buffer.toList).invalidateCurrentPass false

/-- `ClearView` of rectangles, in a texture of an output view, or in an unordered access view. -/
def clearViewRects (c : D3D11Context) (buffer : Option Nat) : D3D11Context :=
  (c.invalidateCurrentPass true).emitOP .passes [] buffer.toList

/-- `GenerateMips` of a texture. -/
def generateMips (c : D3D11Context) : D3D11Context :=
  (c.switchToBlitEncoder .blit).emitOP .blit [] []

/-- `ResolveSubresource` of samples. -/
def resolveSubresource (c : D3D11Context) : D3D11Context :=
  (c.invalidateCurrentPass false).emitOP .passes [] []

/-- The kind of the blit pass of a copy, by whether the destination and the source are staging
resources. -/
def copyKind (stagingDst stagingSrc : Bool) : BlitKind :=
  match stagingDst, stagingSrc with
  | true, false => .readback
  | false, true => .update
  | _, _ => .blit

/-- `CopyBuffer`, of nothing when the box is empty. -/
def copyBuffer (c : D3D11Context) (dst src : Nat) (stagingDst stagingSrc empty : Bool) :
    D3D11Context :=
  let c := (c.flushPendingBufferUpdatesFor dst).flushPendingBufferUpdatesFor src
  if empty then c
  else
    let c := (c.switchToBlitEncoder (copyKind stagingDst stagingSrc)).emitOP .blit [src] [dst]
    if stagingDst then { c with promoteFlush := true } else c

/-- `CopyTexture`, with the buffers of staging textures; a depth stencil texture with a linear
layout is copied in passes of its own. -/
def copyTexture (c : D3D11Context) (dst src : Option Nat) (emulatedDepthStencil : Bool) :
    D3D11Context :=
  let c :=
    if emulatedDepthStencil && (dst.isSome != src.isSome) then
      (c.invalidateCurrentPass true).emitOP .passes src.toList dst.toList
    else
      (c.switchToBlitEncoder (copyKind dst.isSome src.isSome)).emitOP .blit src.toList dst.toList
  if dst.isSome then { c with promoteFlush := true } else c

/-- `CopyStructureCount`, whose source is the counter of a view. -/
def copyStructureCount (c : D3D11Context) (dst : Nat) : D3D11Context :=
  (c.switchToBlitEncoder .blit).emitOP .blit [] [dst]

/-- `UpdateSubresource1` of a buffer: `QueuePendingBufferUpdate`. -/
def updateSubresource (c : D3D11Context) (dst : Nat) : D3D11Context :=
  { c with pendingBufferUpdates := c.pendingBufferUpdates ++ [⟨dst, c.call⟩] }

/-- `UpdateTexture`, from a staging buffer or from a buffer. -/
def updateTexture (c : D3D11Context) (src : Option Nat) : D3D11Context :=
  (c.flushAllPendingBufferUpdates.switchToBlitEncoder .update).emitOP .blit src.toList []

/-! ## State, queries, and submission -/

/-- `Flush1`. -/
def flush (c : D3D11Context) : D3D11Context :=
  if c.deferred then c
  else if c.pendingBufferUpdates ≠ [] ∨ c.hasDirtyOp ∨ c.promoteFlush then
    (c.flushAllPendingBufferUpdates.invalidateCurrentPass true).commit
  else c

/-- What `Map` does besides `FlushPendingBufferUpdatesFor`. -/
inductive MapKind where
  /-- `D3D11_MAP_WRITE_DISCARD` of a dynamic buffer with these bind flags. -/
  | discardBuffer (vertexBuffer constantBuffer shaderResource : Bool)
  /-- `D3D11_MAP_WRITE_DISCARD` of a dynamic texture. -/
  | discardTexture
  /-- Nothing is emitted: `D3D11_MAP_WRITE_NO_OVERWRITE`, and maps that fail. -/
  | noOverwrite
  /-- A staging resource, for which the context is flushed a number of times. -/
  | staging (flushes : Nat)

/-- The stages of both pipelines. -/
def allStages : List PipelineStage := .compute :: graphicsStages

/-- `set_dirty` of the shader resource views of a stage. -/
def setSRVsDirty (c : D3D11Context) (stage : PipelineStage) : D3D11Context :=
  { c with bindings := c.bindings.setSRVs stage (c.bindings.srvs stage).setDirty }

/-- All constant buffers of the stage are dirty. -/
def setConstantBuffersDirty (c : D3D11Context) (stage : PipelineStage) : D3D11Context :=
  { c with
    constantBuffers := Function.update c.constantBuffers stage (c.constantBuffers stage).setDirty }

/-- `Map` of a resource, that has the buffer or none; a deferred context does not flush. -/
def map (c : D3D11Context) (buffer : Option Nat) (kind : MapKind) : D3D11Context :=
  let c :=
    match buffer with
    | none => c
    | some buffer => if c.deferred then c else c.flushPendingBufferUpdatesFor buffer
  match kind with
  | .discardBuffer vertexBuffer constantBuffer shaderResource =>
    let c := if vertexBuffer then c.setVertexBuffersDirty else c
    let c := if constantBuffer then allStages.foldl setConstantBuffersDirty c else c
    let c := if shaderResource then allStages.foldl setSRVsDirty c else c
    c.emitST .other buffer.toList
  | .discardTexture => (allStages.foldl setSRVsDirty c).emitST .other
  | .noOverwrite => c
  | .staging flushes => Nat.iterate flush flushes c

/-- The kinds of queries and counters that `Begin` and `End` tell apart. -/
inductive QueryKind where
  | event
  | timestamp
  | occlusion
  /-- A counter; the one of the running time samples a timestamp. -/
  | counter (samples : Bool)

/-- `EncodeBeginCounter` and `EncodeEndCounter`. -/
def counterOp (samples : Bool) : EncoderOp := if samples then .passes else .other

/-- `Begin`. -/
def beginQuery (c : D3D11Context) (kind : QueryKind) : D3D11Context :=
  let c := if c.deferred then c else c.flushAllPendingBufferUpdates
  match kind with
  | .event => c
  | .timestamp => c
  | .occlusion => c.emitST .other
  | .counter samples => c.emitOP (counterOp samples) [] []

/-- `End`; the events and the timestamps of a deferred context are issued by `ExecuteCommandList`.
-/
def endQuery (c : D3D11Context) (kind : QueryKind) : D3D11Context :=
  match kind with
  | .event =>
    if c.deferred then { c with promoteFlush := true }
    else if c.pendingBufferUpdates ≠ [] ∨ c.hasDirtyOp then
      { (c.flushAllPendingBufferUpdates.invalidateCurrentPass true).emitOP .passes [] [] with
        promoteFlush := true
        hasDirtyOp := false }
    else c
  | .timestamp =>
    if c.deferred then { c with promoteFlush := true }
    else { (c.invalidateCurrentPass true).emitOP .passes [] [] with promoteFlush := true }
  | .occlusion => { c.emitST .other with promoteFlush := true }
  | .counter samples => { c.emitOP (counterOp samples) [] [] with promoteFlush := true }

/-- `ResetEncodingContextState`. -/
def resetEncodingContextState (c : D3D11Context) : D3D11Context :=
  (c.flushAllPendingBufferUpdates.invalidateCurrentPass true).emitST .clearState

/-- `ResetD3D11ContextState`. -/
def resetD3D11ContextState (c : D3D11Context) : D3D11Context :=
  { c with
    bindings := {}
    constantBuffers := fun _ => {}
    samplers := fun _ => {}
    shaders := fun _ => none }

/-- What `RestoreEncodingContextState` emits for a set of unordered access views. -/
def restoreUAVs (c : D3D11Context) (compute : Bool) (uavs : BindingSet D3D11View) : D3D11Context :=
  (List.range uavSlotCount).foldl
    (fun c slot =>
      match uavs.storage slot with
      | none => c
      | some view => c.emitST (.bindOutput compute slot (some view)))
    c

/-- `RestoreEncodingContextState`. -/
def restoreEncodingContextState (c : D3D11Context) : D3D11Context :=
  (c.restoreUAVs false c.bindings.outputUAVs).restoreUAVs true c.bindings.computeUAVs

/-- `ExecuteCommandList` of the immediate context: the queries of the list that end, what its
commands read and write, and its `promote_flush`. -/
def executeCommandList (c : D3D11Context) (queries : List QueryKind) (reads writes : List Nat)
    (promote restore : Bool) : D3D11Context :=
  if c.deferred then c
  else
    let c := { c.resetEncodingContextState with promoteFlush := promote }
    let c := (queries.foldl endQuery c).emitOP .commandList reads writes
    if restore then c.restoreEncodingContextState else c.resetD3D11ContextState

/-- `FinishCommandList` of a deferred context. -/
def finishCommandList (c : D3D11Context) (restore : Bool) : D3D11Context :=
  if c.deferred then
    let c := { c.flushAllPendingBufferUpdates.resetEncodingContextState with promoteFlush := false }
    if restore then c.restoreEncodingContextState else c.resetD3D11ContextState
  else c

/-- `ClearState`. -/
def clearState (c : D3D11Context) : D3D11Context :=
  c.resetEncodingContextState.resetD3D11ContextState

/-- `PrepareFlush`. -/
def prepareFlush (c : D3D11Context) : D3D11Context :=
  if c.deferred then c else c.flushAllPendingBufferUpdates.invalidateCurrentPass true

/-- `WaitUntilGPUIdle`. -/
def waitUntilGPUIdle (c : D3D11Context) : D3D11Context :=
  if c.deferred then c
  else
    let c := c.flushAllPendingBufferUpdates
    if c.promoteFlush then c.invalidateCurrentPass false else (c.invalidateCurrentPass false).commit

/-- `Signal`. -/
def signal (c : D3D11Context) : D3D11Context :=
  if c.deferred then c
  else ((c.flushAllPendingBufferUpdates.invalidateCurrentPass false).emitOP .passes [] []).flush

/-- `Wait`; the flush ends the pass that is open only where it has something to submit. -/
def wait (c : D3D11Context) : D3D11Context :=
  if c.deferred then c else c.flushAllPendingBufferUpdates.flush.emitOP .passes [] []

/-! ## Runs -/

/-- The calls of the context that change what is bound or what is encoded. -/
inductive Call where
  | setShader (stage : PipelineStage) (shader : Option ManagedShader)
  | setConstantBuffer (stage : PipelineStage) (start : Nat)
      (buffers : List (Option (D3D11Resource × Nat) × Option Nat × Option Nat))
  | setShaderResource (stage : PipelineStage) (start : Nat) (views : List (Option D3D11View))
  | setSamplers (stage : PipelineStage) (start : Nat) (samplers : List (Option D3D11SamplerState))
  | csSetUnorderedAccessViews (start : Nat) (views : List (Option D3D11View))
  | omSet (rtvs : Option (List (Option D3D11TargetView))) (dsv : Option D3D11TargetView)
      (start : Nat) (uavs : Option (List (Option D3D11View)))
  | setVertexBuffers (start : Nat) (buffers : List (Option D3D11Resource × Option Nat × Option Nat))
  | setIndexBuffer (buffer : Option D3D11Resource) (format offset : Nat)
  | soSetTargets (targets : List (Option D3D11Resource × Nat))
  /-- `IASetInputLayout`, and a change of the topology or of the blend state. -/
  | setPipelineState
  | draw (d : DrawInputs)
  | drawAuto
  | dispatch (d : DispatchInputs)
  | clearRenderTargetView (buffer : Option Nat)
  | clearDepthStencilView
  | clearUnorderedAccessView (buffer : Option Nat)
  | clearViewRects (buffer : Option Nat)
  | generateMips
  | resolveSubresource
  | copyBuffer (dst src : Nat) (stagingDst stagingSrc empty : Bool)
  | copyTexture (dst src : Option Nat) (emulatedDepthStencil : Bool)
  | copyStructureCount (dst : Nat)
  | updateSubresource (dst : Nat)
  | updateTexture (src : Option Nat)
  | map (buffer : Option Nat) (kind : MapKind)
  | temporalUpscale
  | beginQuery (kind : QueryKind)
  | endQuery (kind : QueryKind)
  | flush
  | executeCommandList (queries : List QueryKind) (reads writes : List Nat) (promote restore : Bool)
  | finishCommandList (restore : Bool)
  | clearState
  | prepareFlush
  | waitUntilGPUIdle
  | signal
  | wait

/-- One call. -/
def exec (c : D3D11Context) : Call → D3D11Context
  | .setShader stage shader => c.setShader stage shader
  | .setConstantBuffer stage start buffers => c.setConstantBuffer stage start buffers
  | .setShaderResource stage start views => c.setShaderResource stage start views
  | .setSamplers stage start samplers => c.setSamplers stage start samplers
  | .csSetUnorderedAccessViews start views => c.csSetUnorderedAccessViews start views
  | .omSet rtvs dsv start uavs => c.omSetRenderTargetsAndUnorderedAccessViews rtvs dsv start uavs
  | .setVertexBuffers start buffers =>
    { c with bindings := Bindings.setVertexBuffers start buffers c.bindings }
  | .setIndexBuffer buffer format offset =>
    { c with bindings := c.bindings.setIndexBuffer buffer format offset }
  | .soSetTargets targets => { c with bindings := c.bindings.soSetTargets targets }
  | .setPipelineState => c.invalidateRenderPipeline
  | .draw d => c.draw d
  | .drawAuto => c.emitST .other
  | .dispatch d => c.dispatch d
  | .clearRenderTargetView buffer => c.clearRenderTargetView buffer
  | .clearDepthStencilView => c.clearDepthStencilView
  | .clearUnorderedAccessView buffer => c.clearUnorderedAccessView buffer
  | .clearViewRects buffer => c.clearViewRects buffer
  | .generateMips => c.generateMips
  | .resolveSubresource => c.resolveSubresource
  | .copyBuffer dst src stagingDst stagingSrc empty =>
    c.copyBuffer dst src stagingDst stagingSrc empty
  | .copyTexture dst src emulatedDepthStencil => c.copyTexture dst src emulatedDepthStencil
  | .copyStructureCount dst => c.copyStructureCount dst
  | .updateSubresource dst => c.updateSubresource dst
  | .updateTexture src => c.updateTexture src
  | .map buffer kind => c.map buffer kind
  | .temporalUpscale => (c.invalidateCurrentPass false).emitOP .passes [] []
  | .beginQuery kind => c.beginQuery kind
  | .endQuery kind => c.endQuery kind
  | .flush => c.flush
  | .executeCommandList queries reads writes promote restore =>
    c.executeCommandList queries reads writes promote restore
  | .finishCommandList restore => c.finishCommandList restore
  | .clearState => c.clearState
  | .prepareFlush => c.prepareFlush
  | .waitUntilGPUIdle => c.waitUntilGPUIdle
  | .signal => c.signal
  | .wait => c.wait

/-- One call of the application. -/
def step (c : D3D11Context) (call : Call) : D3D11Context :=
  { c.exec call with call := c.call + 1 }

/-- A context without state. -/
def init (deferred : Bool) : D3D11Context := { deferred := deferred }

/-- The timestamp of a counter and the event of `Wait` are encoders of their own, before which no
pass is ended: none is open at the call, or the flush of the call ends it. -/
def BetweenPasses (c : D3D11Context) : Call → Prop
  | .beginQuery (.counter true) =>
    c.cmdbufState = .idle ∧ (c.deferred = true ∨ c.pendingBufferUpdates = [])
  | .endQuery (.counter true) => c.cmdbufState = .idle
  | .wait =>
    c.deferred = true ∨ c.cmdbufState = .idle ∨ c.pendingBufferUpdates ≠ [] ∨ c.hasDirtyOp = true ∨
      c.promoteFlush = true
  | _ => True

/-! ## The state of a pass -/

/-- A render encoder is active. -/
def inRender (c : D3D11Context) : Bool :=
  match c.cmdbufState with
  | .renderEncoderActive => true
  | .renderPipelineReady _ => true
  | _ => false

/-- A compute encoder is active. -/
def inCompute (c : D3D11Context) : Bool :=
  match c.cmdbufState with
  | .computeEncoderActive => true
  | .computePipelineReady => true
  | _ => false

@[simp]
theorem cmdbufState_commit (c : D3D11Context) : c.commit.cmdbufState = c.cmdbufState := by
  unfold commit
  split <;> rfl

/-- No pass is open afterwards. -/
@[simp]
theorem cmdbufState_invalidateCurrentPass (c : D3D11Context) (deferCommit : Bool) :
    (c.invalidateCurrentPass deferCommit).cmdbufState = .idle := by
  unfold invalidateCurrentPass
  cases hstate : c.cmdbufState <;> simp only <;> split <;> simp [hstate]

/-- After the switch a render encoder is active. -/
theorem inRender_switchToRenderEncoder {c c' : D3D11Context} {viewport : Bool}
    (h : c.switchToRenderEncoder viewport = (c', true)) : c'.inRender = true := by
  unfold switchToRenderEncoder at h
  split at h
  · next hstate =>
    cases h
    rw [inRender, hstate]
  · next hstate =>
    cases h
    rw [inRender, hstate]
  · dsimp only at h
    split at h
    · cases h
    · cases h
      rfl

/-- After the switch a compute encoder is active. -/
theorem inCompute_switchToComputeEncoder (c : D3D11Context) :
    c.switchToComputeEncoder.inCompute = true := by
  unfold switchToComputeEncoder
  split
  · next hstate => rw [inCompute, hstate]
  · next hstate => rw [inCompute, hstate]
  · rfl

theorem cmdbufState_endQuery {c : D3D11Context} (h : c.cmdbufState = .idle) (kind : QueryKind) :
    (c.endQuery kind).cmdbufState = .idle := by
  cases kind with
  | event =>
    unfold endQuery
    dsimp only
    split
    · exact h
    · split
      · exact cmdbufState_invalidateCurrentPass c.flushAllPendingBufferUpdates true
      · exact h
  | timestamp =>
    unfold endQuery
    dsimp only
    split
    · exact h
    · exact cmdbufState_invalidateCurrentPass c true
  | occlusion => exact h
  | counter samples => exact h

/-- Between two passes `End` meets the condition. -/
theorem betweenPasses_endQuery {c : D3D11Context} (h : c.cmdbufState = .idle) (kind : QueryKind) :
    c.BetweenPasses (.endQuery kind) := by
  cases kind with
  | counter samples =>
    cases samples with
    | false => trivial
    | true => exact h
  | _ => trivial

/-! ## What is pending -/

variable (c : D3D11Context)

@[simp]
theorem pending_commit : c.commit.pendingBufferUpdates = c.pendingBufferUpdates := by
  unfold commit
  split <;> rfl

/-- The end of a pass writes no update. -/
@[simp]
theorem pending_invalidateCurrentPass (deferCommit : Bool) :
    (c.invalidateCurrentPass deferCommit).pendingBufferUpdates = c.pendingBufferUpdates := by
  unfold invalidateCurrentPass
  cases c.cmdbufState <;> dsimp only <;> split <;> simp [emitST]

@[simp]
theorem pending_foldl_setStageDirty (stages : List PipelineStage) :
    (stages.foldl setStageDirty c).pendingBufferUpdates = c.pendingBufferUpdates := by
  induction stages generalizing c with
  | nil => rfl
  | cons stage stages ih => exact ih _

@[simp]
theorem pending_setRenderDirty : c.setRenderDirty.pendingBufferUpdates = c.pendingBufferUpdates :=
  pending_foldl_setStageDirty c graphicsStages

@[simp]
theorem pending_switchToRenderEncoder (viewport : Bool) :
    (c.switchToRenderEncoder viewport).1.pendingBufferUpdates = c.pendingBufferUpdates := by
  unfold switchToRenderEncoder
  split
  · rfl
  · rfl
  · dsimp only
    split <;> simp [emitST]

@[simp]
theorem pending_switchToBlitEncoder (kind : BlitKind) :
    (c.switchToBlitEncoder kind).pendingBufferUpdates = c.pendingBufferUpdates := by
  unfold switchToBlitEncoder
  split
  · rfl
  · simp [emitST]

@[simp]
theorem pending_switchToComputeEncoder :
    c.switchToComputeEncoder.pendingBufferUpdates = c.pendingBufferUpdates := by
  unfold switchToComputeEncoder
  split
  · rfl
  · rfl
  · simp [emitST, setStageDirty, setComputeUAVsDirty]

@[simp]
theorem pending_invalidateComputePipeline :
    c.invalidateComputePipeline.pendingBufferUpdates = c.pendingBufferUpdates := by
  unfold invalidateComputePipeline
  split <;> rfl

theorem pending_setRenderPipeline (kind : PipelineKind) (compiled : Bool) :
    (c.setRenderPipeline kind compiled).pendingBufferUpdates = c.pendingBufferUpdates := by
  unfold setRenderPipeline
  generalize (if compiled = true then EncoderOp.setRenderPipeline kind else EncoderOp.other) = op
  dsimp only
  split
  · rfl
  · exact pending_foldl_setStageDirty ..

/-- Preparing a draw's pipeline writes no update. -/
theorem pending_finalizeCurrentRenderPipeline (d : DrawInputs) :
    (c.finalizeCurrentRenderPipeline d).1.pendingBufferUpdates = c.pendingBufferUpdates := by
  have hs := pending_switchToRenderEncoder c d.viewport
  have hf := finalized c d
  generalize c.finalizeCurrentRenderPipeline d = result at hf ⊢
  cases hf with
  | ready _ _ => rfl
  | invalid => rfl
  | unsupported => rfl
  | noTarget c' hswitch => rwa [hswitch] at hs
  | notCreated c' hswitch => rwa [hswitch] at hs
  | set c' kind _ hswitch =>
    rw [hswitch] at hs
    exact (pending_setRenderPipeline c' kind d.compiled).trans hs

theorem pending_finalizeCurrentComputePipeline (compiled : Bool) :
    (c.finalizeCurrentComputePipeline compiled).1.pendingBufferUpdates =
      c.pendingBufferUpdates := by
  unfold finalizeCurrentComputePipeline
  split
  · rfl
  · dsimp only
    split <;> exact pending_switchToComputeEncoder c

/-- A batch has all the updates of its buffer. -/
theorem pending_emitBatch (op : EncoderOp) (buffer : Nat) :
    (c.emitBatch op buffer).pendingBufferUpdates =
      c.pendingBufferUpdates.filter fun update => update.dst ≠ buffer := by
  unfold emitBatch
  split
  · rfl
  · next hnone =>
    refine (List.filter_eq_self.mpr fun update hupdate => ?_).symm
    refine decide_eq_true fun hdst => hnone ?_
    exact List.any_eq_true.mpr ⟨update, hupdate, decide_eq_true hdst⟩

/-- What is taken out of the queue for one buffer and then for others. -/
theorem filter_dst_cons (updates : List PendingBufferUpdate) (buffer : Nat) (buffers : List Nat) :
    ((updates.filter fun update => update.dst ≠ buffer).filter fun update =>
        update.dst ∉ buffers) =
      updates.filter fun update => update.dst ∉ buffer :: buffers := by
  rw [List.filter_filter]
  refine List.filter_congr fun update _ => ?_
  simp [Bool.and_comm]

theorem filter_dst_nil (updates : List PendingBufferUpdate) :
    updates = updates.filter fun update => update.dst ∉ ([] : List Nat) :=
  (List.filter_eq_self.mpr fun _ _ => decide_eq_true List.not_mem_nil).symm

theorem pending_foldl_emitBatch (op : EncoderOp) (buffers : List Nat) :
    (buffers.foldl (fun c buffer => c.emitBatch op buffer) c).pendingBufferUpdates =
      c.pendingBufferUpdates.filter fun update => update.dst ∉ buffers := by
  induction buffers generalizing c with
  | nil => exact filter_dst_nil _
  | cons buffer buffers ih => rw [List.foldl_cons, ih, pending_emitBatch, filter_dst_cons]

/-- Some update waits for the buffer. -/
theorem hasPendingBufferUpdateFor_iff (buffer : Nat) :
    c.hasPendingBufferUpdateFor buffer = true ↔
      ∃ update ∈ c.pendingBufferUpdates, update.dst = buffer := by
  simp [hasPendingBufferUpdateFor]

/-- Without an update of one of the buffers, none is taken out of the queue. -/
theorem filter_notMem_eq_self {buffers : List Nat}
    (h : buffers.any c.hasPendingBufferUpdateFor = false) :
    (c.pendingBufferUpdates.filter fun update => update.dst ∉ buffers) =
      c.pendingBufferUpdates := by
  refine List.filter_eq_self.mpr fun update hupdate => decide_eq_true fun hmem => ?_
  have hpending := (c.hasPendingBufferUpdateFor_iff update.dst).mpr ⟨update, hupdate, rfl⟩
  rw [List.any_eq_true.mpr ⟨update.dst, hmem, hpending⟩] at h
  cases h

/-- What waits for the buffer is gone, the rest waits on. -/
theorem pending_flushPendingBufferUpdatesFor (buffer : Nat) :
    (c.flushPendingBufferUpdatesFor buffer).pendingBufferUpdates =
      c.pendingBufferUpdates.filter fun update => update.dst ≠ buffer := by
  unfold flushPendingBufferUpdatesFor
  split
  · rw [pending_emitBatch, pending_switchToBlitEncoder]
  · next hnone =>
    have h : [buffer].any c.hasPendingBufferUpdateFor = false := by simpa using hnone
    simpa using (c.filter_notMem_eq_self h).symm

/-- What waits for the buffers is gone, the rest waits on. -/
theorem pending_flushPendingBufferUpdatesForMany (buffers : List Nat) :
    (c.flushPendingBufferUpdatesForMany buffers).pendingBufferUpdates =
      c.pendingBufferUpdates.filter fun update => update.dst ∉ buffers := by
  unfold flushPendingBufferUpdatesForMany
  split
  · rw [pending_foldl_emitBatch, pending_switchToBlitEncoder]
  · next hnone => exact (c.filter_notMem_eq_self (Bool.not_eq_true _ |>.mp hnone)).symm

theorem pending_flushPendingBufferUpdatesForCompute (buffer : Nat) :
    (c.flushPendingBufferUpdatesForCompute buffer).pendingBufferUpdates =
      c.pendingBufferUpdates.filter fun update => update.dst ≠ buffer := by
  unfold flushPendingBufferUpdatesForCompute
  split
  · rw [pending_invalidateComputePipeline, pending_emitBatch, pending_switchToComputeEncoder]
  · next hnone =>
    have h : [buffer].any c.hasPendingBufferUpdateFor = false := by simpa using hnone
    simpa using (c.filter_notMem_eq_self h).symm

theorem pending_foldl_flushPendingBufferUpdatesForCompute (buffers : List Nat) :
    (buffers.foldl flushPendingBufferUpdatesForCompute c).pendingBufferUpdates =
      c.pendingBufferUpdates.filter fun update => update.dst ∉ buffers := by
  induction buffers generalizing c with
  | nil => exact filter_dst_nil _
  | cons buffer buffers ih =>
    rw [List.foldl_cons, ih, pending_flushPendingBufferUpdatesForCompute, filter_dst_cons]

/-- Nothing waits. -/
theorem pending_flushAllPendingBufferUpdates :
    c.flushAllPendingBufferUpdates.pendingBufferUpdates = [] := by
  unfold flushAllPendingBufferUpdates
  split
  · next hnone => exact hnone
  · rw [pending_foldl_emitBatch, pending_switchToBlitEncoder]
    refine List.filter_eq_nil_iff.mpr fun update hupdate => ?_
    simpa using ⟨update, hupdate, rfl⟩

theorem flushAllPendingBufferUpdates_of_nil (h : c.pendingBufferUpdates = []) :
    c.flushAllPendingBufferUpdates = c :=
  if_pos h

/-! ## The flush of `Wait` -/

theorem deferred_invalidateCurrentPass (deferCommit : Bool) :
    (c.invalidateCurrentPass deferCommit).deferred = c.deferred := by
  have hcommit : ∀ c : D3D11Context, c.commit.deferred = c.deferred := fun c => by
    unfold commit
    split <;> rfl
  unfold invalidateCurrentPass
  split <;> dsimp only <;> split <;> first | rfl | exact hcommit _

theorem deferred_switchToBlitEncoder (kind : BlitKind) :
    (c.switchToBlitEncoder kind).deferred = c.deferred := by
  unfold switchToBlitEncoder
  split
  · rfl
  · exact c.deferred_invalidateCurrentPass _

theorem deferred_emitBatch (op : EncoderOp) (buffer : Nat) :
    (c.emitBatch op buffer).deferred = c.deferred := by
  unfold emitBatch
  split <;> rfl

theorem deferred_foldl_emitBatch (buffers : List Nat) :
    (buffers.foldl (fun c buffer => c.emitBatch .blit buffer) c).deferred = c.deferred := by
  induction buffers generalizing c with
  | nil => rfl
  | cons buffer buffers ih => exact (ih _).trans (c.deferred_emitBatch .blit buffer)

theorem deferred_flushAllPendingBufferUpdates :
    c.flushAllPendingBufferUpdates.deferred = c.deferred := by
  unfold flushAllPendingBufferUpdates
  split
  · rfl
  · exact (deferred_foldl_emitBatch _ _).trans (c.deferred_switchToBlitEncoder _)

theorem hasDirtyOp_foldl_emitBatch (hdeferred : c.deferred = false) (h : c.hasDirtyOp = true)
    (buffers : List Nat) :
    (buffers.foldl (fun c buffer => c.emitBatch .blit buffer) c).hasDirtyOp = true := by
  induction buffers generalizing c with
  | nil => exact h
  | cons buffer buffers ih =>
    refine ih (c.emitBatch .blit buffer) ?_ ?_
    · exact (c.deferred_emitBatch .blit buffer).trans hdeferred
    · unfold emitBatch
      split
      · exact if_neg (by rw [hdeferred]; decide)
      · exact h

/-- A flush that finds an update leaves a command behind. -/
theorem hasDirtyOp_flushAllPendingBufferUpdates (hdeferred : c.deferred = false)
    (h : c.pendingBufferUpdates ≠ []) : c.flushAllPendingBufferUpdates.hasDirtyOp = true := by
  have hswitch : (c.switchToBlitEncoder .update).deferred = false :=
    (c.deferred_switchToBlitEncoder _).trans hdeferred
  unfold flushAllPendingBufferUpdates
  rw [if_neg h]
  cases hp : c.pendingBufferUpdates with
  | nil => exact absurd hp h
  | cons update updates =>
    rw [List.map_cons, List.foldl_cons]
    refine hasDirtyOp_foldl_emitBatch _ ?_ ?_ _
    · exact (deferred_emitBatch _ .blit update.dst).trans hswitch
    · unfold emitBatch hasPendingBufferUpdateFor
      rw [pending_switchToBlitEncoder, hp, if_pos (by simp)]
      exact if_neg (by rw [hswitch]; decide)

/-- When `Wait` begins its encoder, no pass is open. -/
theorem cmdbufState_wait (hdeferred : c.deferred = false) (h : c.BetweenPasses .wait) :
    c.flushAllPendingBufferUpdates.flush.cmdbufState = .idle := by
  have hd := c.deferred_flushAllPendingBufferUpdates.trans hdeferred
  unfold flush
  rw [if_neg (by rw [hd]; decide)]
  split
  · rw [cmdbufState_commit, cmdbufState_invalidateCurrentPass]
  · next hnothing =>
    rw [not_or, not_or] at hnothing
    have hnil : c.pendingBufferUpdates = [] := by
      by_contra hne
      exact hnothing.2.1 (c.hasDirtyOp_flushAllPendingBufferUpdates hdeferred hne)
    rw [c.flushAllPendingBufferUpdates_of_nil hnil] at hnothing ⊢
    obtain h | h | h | h | h := h
    · rw [hdeferred] at h
      cases h
    · exact h
    · exact absurd hnil h
    · exact absurd h hnothing.2.1
    · exact absurd h hnothing.2.2

/-! ## The flush of a draw or a dispatch -/

/-- The kind of a draw that is emitted. -/
def drawn (d : DrawInputs) : Option PipelineKind :=
  if d.valid ∧ d.indirect ≠ some none then (c.preDraw d).2 else none

/-- A dispatch is emitted. -/
def dispatched (d : DispatchInputs) : Bool :=
  (c.preDispatch d).2 && decide (d.indirect ≠ some none)

/-- The flush of a draw is made, and is one of this buffer. -/
def drawFlushes (buffer : Nat) : Bool :=
  c.drawBindingBuffers.any c.hasPendingBufferUpdateFor &&
    decide (buffer ∈ c.drawBindingBuffers ++ graphicsStages.flatMap c.shaderConstantBuffers)

/-- The constant buffers and the other buffers that a dispatch flushes. -/
def computeBuffers : List Nat :=
  (c.constantBuffers .compute).buffers constantBufferSlotCount (fun entry =>
    some entry.buffer.id) ++ c.computeBindingBuffers

/-- A dispatch flushes the waiting updates of the buffer. -/
def dispatchFlushes (buffer : Nat) : Bool :=
  c.computeBindingBuffers.any c.hasPendingBufferUpdateFor && decide (buffer ∈ c.computeBuffers)

/-- Nothing waits for a buffer that the draw flushes. -/
theorem pending_flushPendingBufferUpdatesForDrawBindings {buffer : Nat}
    (h : c.hasPendingBufferUpdateFor buffer = true → c.drawFlushes buffer = true) :
    c.flushPendingBufferUpdatesForDrawBindings.hasPendingBufferUpdateFor buffer = false := by
  by_contra hpending
  obtain ⟨update, hupdate, hdst⟩ :=
    (hasPendingBufferUpdateFor_iff _ buffer).mp (Bool.not_eq_false _ |>.mp hpending)
  unfold flushPendingBufferUpdatesForDrawBindings at hupdate
  split at hupdate
  · next hany =>
    rw [pending_flushPendingBufferUpdatesForMany, List.mem_filter] at hupdate
    have hflushes := h ((c.hasPendingBufferUpdateFor_iff buffer).mpr ⟨update, hupdate.1, hdst⟩)
    rw [drawFlushes, hany, Bool.true_and, decide_eq_true_eq] at hflushes
    exact of_decide_eq_true hupdate.2 (hdst ▸ hflushes)
  · next hnone =>
    have hflushes := h ((c.hasPendingBufferUpdateFor_iff buffer).mpr ⟨update, hupdate, hdst⟩)
    rw [drawFlushes, Bool.and_eq_true] at hflushes
    exact hnone hflushes.1

/-- Nothing waits for a buffer that the dispatch flushes. -/
theorem pending_flushPendingBufferUpdatesForComputeBindings {buffer : Nat}
    (h : c.hasPendingBufferUpdateFor buffer = true → c.dispatchFlushes buffer = true) :
    c.flushPendingBufferUpdatesForComputeBindings.hasPendingBufferUpdateFor buffer = false := by
  by_contra hpending
  obtain ⟨update, hupdate, hdst⟩ :=
    (hasPendingBufferUpdateFor_iff _ buffer).mp (Bool.not_eq_false _ |>.mp hpending)
  unfold flushPendingBufferUpdatesForComputeBindings at hupdate
  split at hupdate
  · next hany =>
    rw [pending_foldl_flushPendingBufferUpdatesForCompute, List.mem_filter] at hupdate
    have hflushes := h ((c.hasPendingBufferUpdateFor_iff buffer).mpr ⟨update, hupdate.1, hdst⟩)
    rw [dispatchFlushes, hany, Bool.true_and, decide_eq_true_eq] at hflushes
    exact of_decide_eq_true hupdate.2 (hdst ▸ hflushes)
  · next hnone =>
    have hflushes := h ((c.hasPendingBufferUpdateFor_iff buffer).mpr ⟨update, hupdate, hdst⟩)
    rw [dispatchFlushes, Bool.and_eq_true] at hflushes
    exact hnone hflushes.1

/-- Without the early return, that is for when nothing is encoded. -/
theorem uploadShaderStageResourceBinding_eq {stage : PipelineStage} {kind : PipelineKind}
    {shader : ManagedShader} (h : c.shaders stage = some shader) :
    c.uploadShaderStageResourceBinding stage kind =
      (let c₁ :=
        if shader.constantBuffers ≠ [] ∧ c.dirtyCBuffer stage shader then
          c.uploadConstantBuffers stage kind shader
        else c
      if shader.arguments ≠ [] ∧
          (c.dirtySampler stage shader || c.dirtySRV stage shader || c.uavBound stage shader) then
        c₁.uploadArguments stage kind shader
      else c₁) := by
  unfold uploadShaderStageResourceBinding
  rw [h]
  dsimp only
  split
  · next hnone =>
    simp only [Bool.and_eq_true, Bool.not_eq_true'] at hnone
    obtain ⟨⟨⟨hcbuffer, hsampler⟩, hsrv⟩, huav⟩ := hnone
    simp [hcbuffer, hsampler, hsrv, huav]
  · rfl

theorem commands_uploadArguments (stage : PipelineStage) (kind : PipelineKind)
    (shader : ManagedShader) :
    (c.uploadArguments stage kind shader).commands =
      c.commands ++ [⟨.encodeShaderResources stage kind
        (shader.arguments.map fun arg => (arg, c.snapshot stage arg)), c.cmdbufState, [c.call],
          [], []⟩] := by
  unfold uploadArguments
  dsimp only
  split
  · rfl
  · split <;> rfl

/-- An upload emits tables, and touches neither the pass nor the queue. -/
theorem upload_frame (stage : PipelineStage) (kind : PipelineKind) :
    (c.uploadShaderStageResourceBinding stage kind).cmdbufState = c.cmdbufState ∧
      (c.uploadShaderStageResourceBinding stage kind).pendingBufferUpdates =
        c.pendingBufferUpdates := by
  have hconstants : ∀ (c : D3D11Context) shader,
      (c.uploadConstantBuffers stage kind shader).cmdbufState = c.cmdbufState ∧
        (c.uploadConstantBuffers stage kind shader).pendingBufferUpdates =
          c.pendingBufferUpdates := fun _ _ => ⟨rfl, rfl⟩
  have harguments : ∀ (c : D3D11Context) shader,
      (c.uploadArguments stage kind shader).cmdbufState = c.cmdbufState ∧
        (c.uploadArguments stage kind shader).pendingBufferUpdates = c.pendingBufferUpdates := by
    intro c shader
    unfold uploadArguments
    dsimp only
    split
    · exact ⟨rfl, rfl⟩
    · split <;> exact ⟨rfl, rfl⟩
  cases hshader : c.shaders stage with
  | none =>
    unfold uploadShaderStageResourceBinding
    rw [hshader]
    exact ⟨rfl, rfl⟩
  | some shader =>
    rw [uploadShaderStageResourceBinding_eq c hshader]
    dsimp only
    split
    · rw [(harguments _ shader).1, (harguments _ shader).2]
      split
      · exact hconstants c shader
      · exact ⟨rfl, rfl⟩
    · split
      · exact hconstants c shader
      · exact ⟨rfl, rfl⟩

theorem pending_foldl_uploadShaderStageResourceBinding (kind : PipelineKind)
    (stages : List PipelineStage) :
    (stages.foldl (fun c stage => c.uploadShaderStageResourceBinding stage kind)
      c).pendingBufferUpdates = c.pendingBufferUpdates := by
  induction stages generalizing c with
  | nil => rfl
  | cons stage stages ih => exact (ih _).trans (c.upload_frame stage kind).2

/-- The preparation of a draw, step by step. -/
theorem preDraw_eq (d : DrawInputs) :
    c.preDraw d =
      if d.indexed && c.flushPendingBufferUpdatesForDrawBindings.bindings.indexBuffer.isNone then
        (c.flushPendingBufferUpdatesForDrawBindings, none)
      else
        match c.flushPendingBufferUpdatesForDrawBindings.finalizeCurrentRenderPipeline d with
        | (c, none) => (c, none)
        | (c, some kind) =>
          (kind.stages.foldl (fun c stage => c.uploadShaderStageResourceBinding stage kind) c,
            some kind) := by
  unfold preDraw
  dsimp only
  split
  · rfl
  · cases hf : c.flushPendingBufferUpdatesForDrawBindings.finalizeCurrentRenderPipeline d with
    | mk p status =>
      cases status with
      | none => rfl
      | some kind =>
        dsimp only
        rw [finalized_state hf]

/-- With a status, the tables of the pipeline that is ready are uploaded. -/
theorem preDraw_some {d : DrawInputs} {kind : PipelineKind} (h : (c.preDraw d).2 = some kind) :
    (c.flushPendingBufferUpdatesForDrawBindings.finalizeCurrentRenderPipeline d).1.cmdbufState =
        .renderPipelineReady kind ∧
      (c.flushPendingBufferUpdatesForDrawBindings.finalizeCurrentRenderPipeline d).2 = some kind ∧
      (c.preDraw d).1 =
        kind.stages.foldl (fun c stage => c.uploadShaderStageResourceBinding stage kind)
          (c.flushPendingBufferUpdatesForDrawBindings.finalizeCurrentRenderPipeline d).1 := by
  rw [preDraw_eq] at h ⊢
  split at h
  · cases h
  · next hindexed =>
    rw [if_neg hindexed]
    cases hf : c.flushPendingBufferUpdatesForDrawBindings.finalizeCurrentRenderPipeline d with
    | mk p status =>
      rw [hf] at h
      cases status with
      | none => cases h
      | some kind' =>
        cases h
        exact ⟨finalized_state hf, rfl, rfl⟩

theorem pending_preDraw (d : DrawInputs) :
    (c.preDraw d).1.pendingBufferUpdates =
      c.flushPendingBufferUpdatesForDrawBindings.pendingBufferUpdates := by
  have hf := pending_finalizeCurrentRenderPipeline c.flushPendingBufferUpdatesForDrawBindings d
  rw [preDraw_eq]
  split
  · rfl
  · generalize c.flushPendingBufferUpdatesForDrawBindings.finalizeCurrentRenderPipeline d = result
      at hf ⊢
    obtain ⟨p, status⟩ := result
    cases status with
    | none => exact hf
    | some kind => exact (pending_foldl_uploadShaderStageResourceBinding p kind _).trans hf

theorem cmdbufState_finalizeCurrentComputePipeline (compiled : Bool)
    (h : (c.finalizeCurrentComputePipeline compiled).2 = true) :
    (c.finalizeCurrentComputePipeline compiled).1.cmdbufState = .computePipelineReady := by
  unfold finalizeCurrentComputePipeline at h ⊢
  split
  · next hstate => exact hstate
  · next hstate =>
    rw [if_neg hstate] at h
    dsimp only at h ⊢
    split
    · next hnone =>
      rw [hnone] at h
      cases h
    · rfl

/-- A dispatch is encoded with its pipeline ready. -/
theorem preDispatch_true {d : DispatchInputs} (h : (c.preDispatch d).2 = true) :
    (c.flushPendingBufferUpdatesForComputeBindings.finalizeCurrentComputePipeline
        d.compiled).1.cmdbufState = .computePipelineReady ∧
      (c.flushPendingBufferUpdatesForComputeBindings.finalizeCurrentComputePipeline
        d.compiled).2 = true ∧
      (c.preDispatch d).1 =
        (c.flushPendingBufferUpdatesForComputeBindings.finalizeCurrentComputePipeline
          d.compiled).1.uploadShaderStageResourceBinding .compute .ordinary := by
  have hstate := cmdbufState_finalizeCurrentComputePipeline
    c.flushPendingBufferUpdatesForComputeBindings d.compiled
  unfold preDispatch at h ⊢
  generalize c.flushPendingBufferUpdatesForComputeBindings.finalizeCurrentComputePipeline
    d.compiled = result at h hstate ⊢
  obtain ⟨p, status⟩ := result
  cases status with
  | false => cases h
  | true => exact ⟨hstate rfl, rfl, rfl⟩

theorem pending_preDispatch (d : DispatchInputs) :
    (c.preDispatch d).1.pendingBufferUpdates =
      c.flushPendingBufferUpdatesForComputeBindings.pendingBufferUpdates := by
  have hf := pending_finalizeCurrentComputePipeline c.flushPendingBufferUpdatesForComputeBindings
    d.compiled
  unfold preDispatch
  generalize c.flushPendingBufferUpdatesForComputeBindings.finalizeCurrentComputePipeline
    d.compiled = result at hf ⊢
  obtain ⟨p, status⟩ := result
  cases status with
  | false => exact hf
  | true => exact (p.upload_frame .compute .ordinary).2.trans hf

/-- `FlushPendingBufferUpdatesFor` of the arguments of an indirect draw or dispatch. -/
def flushArguments (indirect : Option (Option Nat)) : D3D11Context :=
  match indirect with
  | some (some buffer) => c.flushPendingBufferUpdatesFor buffer
  | _ => c

/-- A draw that is emitted. -/
theorem draw_of_drawn {d : DrawInputs} {kind : PipelineKind} (h : c.drawn d = some kind) :
    c.draw d =
      ((c.preDraw d).1.flushArguments d.indirect).emitOP (.draw kind)
        (d.indirect.join.toList ++ ((c.preDraw d).1.flushArguments d.indirect).drawReads d kind)
        (((c.preDraw d).1.flushArguments d.indirect).drawWrites kind) := by
  unfold drawn at h
  split at h
  · next hemitted =>
    obtain ⟨hvalid, hindirect⟩ := hemitted
    unfold draw
    rw [if_pos hvalid]
    generalize c.preDraw d = result at h ⊢
    obtain ⟨p, status⟩ := result
    cases h
    dsimp only
    match hd : d.indirect, hindirect with
    | none, _ => rfl
    | some (some buffer), _ => rfl
    | some none, hne => exact absurd rfl hne
  · cases h

theorem draw_of_not_valid {d : DrawInputs} (h : d.valid = false) : c.draw d = c :=
  if_neg (by rw [h]; decide)

/-- A draw that is not emitted. -/
theorem draw_of_valid {d : DrawInputs} (hvalid : d.valid = true) (h : c.drawn d = none) :
    c.draw d = (c.preDraw d).1 := by
  unfold draw
  rw [if_pos hvalid]
  unfold drawn at h
  generalize c.preDraw d = result at h ⊢
  obtain ⟨p, status⟩ := result
  cases status with
  | none => rfl
  | some kind =>
    match hd : d.indirect with
    | some none => rfl
    | none => rw [hd] at h; simp [hvalid] at h
    | some (some buffer) => rw [hd] at h; simp [hvalid] at h

/-- A draw that is not encoded does nothing, or stops while it is prepared. -/
theorem draw_of_not_drawn {d : DrawInputs} (h : c.drawn d = none) :
    c.draw d = c ∨ c.draw d = (c.preDraw d).1 := by
  cases hvalid : d.valid with
  | false => exact .inl (c.draw_of_not_valid hvalid)
  | true => exact .inr (c.draw_of_valid hvalid h)

/-- A dispatch that is encoded: preparation, arguments, dispatch. -/
theorem dispatch_of_dispatched {d : DispatchInputs} (h : c.dispatched d = true) :
    c.dispatch d =
      ((c.preDispatch d).1.flushArguments d.indirect).emitOP .dispatch
        (d.indirect.join.toList ++
          ((c.preDispatch d).1.flushArguments d.indirect).stageReads .compute)
        (((c.preDispatch d).1.flushArguments d.indirect).shaderUAVBuffers .compute) := by
  unfold dispatched at h
  unfold dispatch
  rw [Bool.and_eq_true, decide_eq_true_eq] at h
  obtain ⟨hstatus, hindirect⟩ := h
  generalize c.preDispatch d = result at hstatus ⊢
  obtain ⟨p, status⟩ := result
  cases hstatus
  dsimp only
  match hd : d.indirect, hindirect with
  | none, _ => rfl
  | some (some buffer), _ => rfl
  | some none, hne => exact absurd rfl hne

theorem dispatch_of_not_dispatched {d : DispatchInputs} (h : c.dispatched d = false) :
    c.dispatch d = (c.preDispatch d).1 := by
  unfold dispatched at h
  unfold dispatch
  generalize c.preDispatch d = result at h ⊢
  obtain ⟨p, status⟩ := result
  cases status with
  | false => rfl
  | true =>
    match hd : d.indirect with
    | some none => rfl
    | none => rw [hd] at h; simp at h
    | some (some buffer) => rw [hd] at h; simp at h

/-- Where nothing waits for the arguments, nothing is flushed. -/
theorem flushArguments_eq_self {indirect : Option (Option Nat)}
    (h : ∀ buffer, indirect = some (some buffer) → c.hasPendingBufferUpdateFor buffer = false) :
    c.flushArguments indirect = c := by
  match indirect with
  | none => rfl
  | some none => rfl
  | some (some buffer) =>
    unfold flushArguments flushPendingBufferUpdatesFor
    dsimp only
    rw [h buffer rfl]
    rfl

/-- Nothing is flushed for the arguments when the flush of the draw is one of them. -/
theorem flushArguments_preDraw {d : DrawInputs}
    (h : ∀ buffer, d.indirect = some (some buffer) → c.hasPendingBufferUpdateFor buffer = true →
      c.drawFlushes buffer = true) :
    (c.preDraw d).1.flushArguments d.indirect = (c.preDraw d).1 := by
  refine flushArguments_eq_self _ fun buffer hbuffer => ?_
  unfold hasPendingBufferUpdateFor
  rw [pending_preDraw]
  exact c.pending_flushPendingBufferUpdatesForDrawBindings (h buffer hbuffer)

/-- The bindings' flush has written the arguments as well. -/
theorem flushArguments_preDispatch {d : DispatchInputs}
    (h : ∀ buffer, d.indirect = some (some buffer) → c.hasPendingBufferUpdateFor buffer = true →
      c.dispatchFlushes buffer = true) :
    (c.preDispatch d).1.flushArguments d.indirect = (c.preDispatch d).1 := by
  refine flushArguments_eq_self _ fun buffer hbuffer => ?_
  unfold hasPendingBufferUpdateFor
  rw [pending_preDispatch]
  exact c.pending_flushPendingBufferUpdatesForComputeBindings (h buffer hbuffer)

end D3D11Context

/-! ## The encoder -/

/-- A pass, with the pipeline that is set in it. -/
inductive Pass where
  | render (pipeline : Option PipelineKind)
  | compute (pipeline : Bool)
  | blit
deriving DecidableEq

namespace Pass

/-- The pass is a render pass. -/
def isRender : Pass → Bool
  | .render _ => true
  | _ => false

/-- The pass is a compute pass. -/
def isCompute : Pass → Bool
  | .compute _ => true
  | _ => false

end Pass

/-- The functions of a pipeline that have argument buffers. -/
inductive ShaderFunction where
  | vertex
  | fragment
  | object
  | mesh
  | kernel
deriving DecidableEq

/-- The buffer index of a function that a table is set at. -/
structure BindingPoint where
  function : ShaderFunction
  index : Nat
deriving DecidableEq

/-- Where `encodeConstantBuffers` and `encodeShaderResources` set a table; `index` is 29 or 30. The
vertex shader of a tessellation pipeline has indices of its own. -/
def bindingPoint (stage : PipelineStage) (kind : PipelineKind) (index : Nat) : BindingPoint :=
  match stage with
  | .compute => ⟨.kernel, index⟩
  | .vertex =>
    match kind with
    | .geometry => ⟨.object, index⟩
    | .tessellation => ⟨.object, index - 2⟩
    | .ordinary => ⟨.vertex, index⟩
  | .pixel => ⟨.fragment, index⟩
  | .hull => ⟨.object, index⟩
  | .domain => ⟨.mesh, index⟩
  | .geometry => ⟨.mesh, index⟩

/-- Where the stage's constant table is bound. -/
def constantsPoint (stage : PipelineStage) (kind : PipelineKind) : BindingPoint :=
  bindingPoint stage kind 29

/-- Where the stage's argument table is bound. -/
def argumentsPoint (stage : PipelineStage) (kind : PipelineKind) : BindingPoint :=
  bindingPoint stage kind 30

/-- The table that one binding point holds. -/
inductive BindingTable where
  | constants (table : List (Nat × Option (D3D11Resource × Nat)))
  | arguments (table : List (ShaderArgument × ArgumentBinding))
deriving DecidableEq

/-- What the encoder has after some commands. -/
structure EncodingContext where
  pass : Option Pass := none
  tables : BindingPoint → Option BindingTable := fun _ => none
  /-- `om_uav_`. -/
  outputUAVs : Nat → Option D3D11View := fun _ => none
  /-- `cs_uav_`. -/
  computeUAVs : Nat → Option D3D11View := fun _ => none

namespace EncodingContext

/-- An entry of the table that `encodeShaderResources` writes. -/
def argument (e : EncodingContext) (stage : PipelineStage) (arg : ShaderArgument)
    (snapshot : ArgumentBinding) : ArgumentBinding :=
  match arg.type with
  | .uav =>
    ((if stage = .compute then e.computeUAVs else e.outputUAVs) arg.slot).elim .empty .uav
  | _ => snapshot

/-- A new pass holds no tables. -/
def start (e : EncodingContext) (pass : Pass) : EncodingContext :=
  { e with pass := some pass, tables := fun _ => none }

/-- One operation of the encoding thread. -/
def step (e : EncodingContext) : EncoderOp → EncodingContext
  | .endPass => { e with pass := none, tables := fun _ => none }
  | .startRenderPass => e.start (.render none)
  | .startComputePass => e.start (.compute false)
  | .startBlitPass => e.start .blit
  | .setRenderPipeline kind => { e with pass := some (.render (some kind)) }
  | .setComputePipeline => { e with pass := some (.compute true) }
  | .bindOutput compute slot view =>
    if compute then { e with computeUAVs := Function.update e.computeUAVs slot view }
    else { e with outputUAVs := Function.update e.outputUAVs slot view }
  | .clearState => { e with outputUAVs := fun _ => none, computeUAVs := fun _ => none }
  | .encodeConstantBuffers stage kind table =>
    { e with
      tables := Function.update e.tables (constantsPoint stage kind) (some (.constants table)) }
  | .encodeShaderResources stage kind snapshot =>
    { e with
      tables := Function.update e.tables (argumentsPoint stage kind)
        (some (.arguments (snapshot.map fun (arg, binding) =>
          (arg, e.argument stage arg binding)))) }
  | .emulated => { e with pass := some (.compute false) }
  | .commandList => { e with outputUAVs := fun _ => none, computeUAVs := fun _ => none }
  | .passes => { e with pass := none, tables := fun _ => none }
  | .draw _ => e
  | .dispatch => e
  | .blit => e
  | .other => e

/-- The command is one for the pass that is open, and a draw or a dispatch finds its pipeline. -/
def accepts (e : EncodingContext) : EncoderOp → Bool
  | .endPass => e.pass.isSome
  | .startRenderPass => e.pass.isNone
  | .startComputePass => e.pass.isNone
  | .startBlitPass => e.pass.isNone
  | .setRenderPipeline _ => e.pass.any Pass.isRender
  | .setComputePipeline => e.pass.any Pass.isCompute
  | .encodeConstantBuffers stage _ _ =>
    e.pass.any (if stage = .compute then Pass.isCompute else Pass.isRender)
  | .encodeShaderResources stage _ _ =>
    e.pass.any (if stage = .compute then Pass.isCompute else Pass.isRender)
  | .draw kind => e.pass = some (.render (some kind))
  | .dispatch => e.pass = some (.compute true)
  | .blit => e.pass = some .blit
  | .emulated => e.pass.any Pass.isCompute
  | .passes => e.pass.isNone
  | .commandList => e.pass.isNone
  | .bindOutput _ _ _ => true
  | .clearState => true
  | .other => true

end EncodingContext

namespace D3D11Context

/-- The encoder after the commands of the context. -/
def encoder (c : D3D11Context) : EncodingContext :=
  c.commands.foldl (fun e command => e.step command.op) {}

theorem encoder_of_commands {c c' : D3D11Context} {command : Command}
    (h : c'.commands = c.commands ++ [command]) :
    c'.encoder = c.encoder.step command.op := by
  rw [encoder, h, List.foldl_append]
  rfl

@[simp]
theorem encoder_emitST (c : D3D11Context) (op : EncoderOp) (writes : List Nat) :
    (c.emitST op writes).encoder = c.encoder.step op := by
  have h : (c.emitST op writes).commands =
      c.commands ++ [⟨op, c.cmdbufState, [c.call], [], writes⟩] := rfl
  exact encoder_of_commands h

/-- The encoding thread takes the operation as its last. -/
@[simp]
theorem encoder_emitOP (c : D3D11Context) (op : EncoderOp) (reads writes : List Nat) :
    (c.emitOP op reads writes).encoder = c.encoder.step op := by
  have h : (c.emitOP op reads writes).commands =
      c.commands ++ [⟨op, c.cmdbufState, [c.call], reads, writes⟩] := rfl
  exact encoder_of_commands h

end D3D11Context

end Dxmt
