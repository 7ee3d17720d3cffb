import Dxmt.BindingHazard

/-!
# The state of a D3D11 context: its bindings, its shaders, its queued updates

What a context keeps between two calls: the bindings, the shaders, the pass that it believes is open
(`CommandBufferState`), the updates of buffers that it has queued, and the commands that it has
emitted. A command is emitted by a closure that runs later on the encoding thread; the closures run
in the order of their emission, so that the list of them is what the encoder sees.

Every command has the numbers of the calls that it is of, and the buffers that it reads and writes.

The setters of shaders, constant buffers and samplers are here. The commands that bind a vertex
buffer or a stream-output target in the encoder are left out, with the state of the rasterizer and
the blender.

Source: `d3d11_context_state.hpp:14-135`, `d3d11_context_impl.cpp:3403-3445, 3449-3553, 3718-3740`,
`airconv_public.h:86-125`.
-/

namespace Dxmt

/-- What the resource table of a shader has an entry for. -/
inductive SM50BindingType where
  | sampler
  | srv
  | uav
deriving DecidableEq

/-- `D3D11_COMMONSHADER_SAMPLER_SLOT_COUNT`. -/
def samplerSlotCount : Nat := 16
/-- `D3D11_COMMONSHADER_CONSTANT_BUFFER_API_SLOT_COUNT`. -/
def constantBufferSlotCount : Nat := 14

/-- The slots of a binding type. -/
def SM50BindingType.slotCount : SM50BindingType → Nat
  | .sampler => samplerSlotCount
  | .srv => srvSlotCount
  | .uav => uavSlotCount

/-- `MTL_SM50_SHADER_ARGUMENT`. -/
structure ShaderArgument where
  type : SM50BindingType
  slot : Nat
deriving DecidableEq

/-- `MTL_TESSELLATOR_OUTPUT`; both windings are `triangle`. -/
inductive TessellatorOutput where
  | point
  | line
  | triangle
deriving DecidableEq

/-- A shader with what is used of `MTL_SHADER_REFLECTION`. The slots that it declares exist, so that
the slot masks have them all. -/
structure ManagedShader where
  id : Nat
  /-- The slots of `constant_buffers_info`. -/
  constantBuffers : List Nat := []
  /-- `arguments_info`. -/
  arguments : List ShaderArgument := []
  outputPrimitive : TessellatorOutput := .triangle
  /-- `GSPassThrough` is not `~0u`. -/
  gsPassThrough : Bool := false
  /-- An argument has `MTL_SM50_SHADER_ARGUMENT_TEXTURE_MULTISAMPLED`. -/
  multisampledSRV : Bool := false
  constantBuffers_lt : ∀ slot ∈ constantBuffers, slot < constantBufferSlotCount := by decide
  arguments_lt : ∀ arg ∈ arguments, arg.slot < arg.type.slotCount := by decide
deriving DecidableEq

namespace ManagedShader

/-- The slots of a type that the shader uses. -/
def slotsOf (shader : ManagedShader) (type : SM50BindingType) : List Nat :=
  (shader.arguments.filter fun arg => arg.type = type).map ShaderArgument.slot

/-- The constant buffers that the shader uses. -/
def constantBufferSlotMask (shader : ManagedShader) : List Nat := shader.constantBuffers
/-- The samplers that the shader uses. -/
def samplerSlotMask (shader : ManagedShader) : List Nat := shader.slotsOf .sampler
/-- The shader resources that the shader uses. -/
def srvSlotMask (shader : ManagedShader) : List Nat := shader.slotsOf .srv
/-- The unordered access views that the shader uses. -/
def uavSlotMask (shader : ManagedShader) : List Nat := shader.slotsOf .uav

end ManagedShader

/-- `CONSTANT_BUFFER_B`. -/
structure ConstantBufferBinding where
  buffer : D3D11Resource
  firstConstant : Nat
  numConstants : Nat
deriving DecidableEq

instance : RedundantBindingTrait ConstantBufferBinding where
  isRedundant a b := decide (a.buffer = b.buffer)

/-- A sampler state. -/
structure D3D11SamplerState where
  id : Nat
deriving DecidableEq

instance : RedundantBindingTrait D3D11SamplerState where
  isRedundant a b := decide (a = b)

/-- `PipelineKind`. -/
inductive PipelineKind where
  | ordinary
  | tessellation
  | geometry
deriving DecidableEq

/-- The three states of an open blit encoder. -/
inductive BlitKind where
  | blit
  | update
  | readback
deriving DecidableEq

/-- `CommandBufferState`; `renderPipelineReady` has the kind of the pipeline, and
`blitEncoderActive` that of the blit encoder. -/
inductive CommandBufferState where
  | idle
  | renderEncoderActive
  | renderPipelineReady (kind : PipelineKind)
  | computeEncoderActive
  | computePipelineReady
  | blitEncoderActive (kind : BlitKind)
deriving DecidableEq

/-- What an entry of a resource table is encoded from. -/
inductive ArgumentBinding where
  | empty
  | sampler (sampler : D3D11SamplerState)
  | srv (view : D3D11View)
  | uav (view : D3D11View)
deriving DecidableEq

/-- A closure given to `EmitST` or `EmitOP`, as far as it matters for the encoders. -/
inductive EncoderOp where
  | endPass
  | startRenderPass
  | startComputePass
  | startBlitPass
  | setRenderPipeline (kind : PipelineKind)
  | setComputePipeline
  /-- `bindOutputBuffer` and `bindOutputTexture`. -/
  | bindOutput (compute : Bool) (slot : Nat) (view : Option D3D11View)
  | clearState
  /-- The table has the slot, the buffer, and the offset of every entry. -/
  | encodeConstantBuffers (stage : PipelineStage) (kind : PipelineKind)
      (table : List (Nat × Option (D3D11Resource × Nat)))
  /-- An unordered access view has no snapshot: its entry is from what `bindOutput` left. -/
  | encodeShaderResources (stage : PipelineStage) (kind : PipelineKind)
      (snapshot : List (ShaderArgument × ArgumentBinding))
  | draw (kind : PipelineKind)
  | dispatch
  /-- A command of the blit encoder. -/
  | blit
  /-- A command of `EmulatedCommandContext`, that sets a pipeline of its own and dispatches it. -/
  | emulated
  /-- Encoders of their own, such as a clear, a resolve, an event or a timestamp. -/
  | passes
  /-- The commands of a command list, that ends with `clearState`. -/
  | commandList
  /-- Everything that is no command of an encoder: a renaming, a query. -/
  | other
deriving DecidableEq

/-- An emitted command: the pass that the context takes to be open, the calls that it is of, and the
buffers that it reads and writes. -/
structure Command where
  op : EncoderOp
  state : CommandBufferState
  calls : List Nat
  reads : List Nat := []
  writes : List Nat := []
deriving DecidableEq

/-- `PendingBufferUpdate`: the buffer, and the call that queued it. -/
structure PendingBufferUpdate where
  dst : Nat
  call : Nat
deriving DecidableEq

/-- The state of a context that its calls read or change. -/
structure D3D11Context where
  /-- A deferred context records for a command list. -/
  deferred : Bool := false
  bindings : Bindings := {}
  constantBuffers : PipelineStage → BindingSet ConstantBufferBinding := fun _ => {}
  samplers : PipelineStage → BindingSet D3D11SamplerState := fun _ => {}
  shaders : PipelineStage → Option ManagedShader := fun _ => none
  cmdbufState : CommandBufferState := .idle
  previousRenderPipelineState : CommandBufferState := .idle
  promoteFlush : Bool := false
  hasDirtyOp : Bool := false
  pendingBufferUpdates : List PendingBufferUpdate := []
  commands : List Command := []
  /-- The number of the call that runs. -/
  call : Nat := 0

/-- `buffer()` of a view: the buffer that it is of. -/
def D3D11View.buffer (v : D3D11View) : Option Nat :=
  match v.resource.extent with
  | .buffer _ _ _ => some v.resource.id
  | .texture _ => none

/-- The buffers that are bound in the first `n` slots. -/
def BindingSet.buffers {Element : Type*} (s : BindingSet Element) (n : Nat)
    (buffer : Element → Option Nat) : List Nat :=
  (List.range n).filterMap fun slot => (s.storage slot).bind buffer

/-- The buffers that are bound in slots of the mask. -/
def BindingSet.buffersMasked {Element : Type*} (s : BindingSet Element) (mask : List Nat)
    (buffer : Element → Option Nat) : List Nat :=
  mask.filterMap fun slot => (s.storage slot).bind buffer

namespace D3D11Context

/-- `EmitST`. -/
def emitST (c : D3D11Context) (op : EncoderOp) (writes : List Nat := []) : D3D11Context :=
  { c with commands := c.commands ++ [⟨op, c.cmdbufState, [c.call], [], writes⟩] }

/-- `EmitOP`, of a command that reads and writes buffers. -/
def emitOP (c : D3D11Context) (op : EncoderOp) (reads writes : List Nat) : D3D11Context :=
  { c with
    commands := c.commands ++ [⟨op, c.cmdbufState, [c.call], reads, writes⟩]
    hasDirtyOp := if c.deferred then c.hasDirtyOp else true }

/-- `Commit`; that of a deferred context does nothing. -/
def commit (c : D3D11Context) : D3D11Context :=
  if c.deferred then c else { c with promoteFlush := false, hasDirtyOp := false }

/-! ## Passes and pipelines -/

/-- `InvalidateCurrentPass`. -/
def invalidateCurrentPass (c : D3D11Context) (deferCommit : Bool) : D3D11Context :=
  let c :=
    match c.cmdbufState with
    | .idle => c
    | _ => { c.emitST .endPass with cmdbufState := .idle }
  if c.promoteFlush && !deferCommit then c.commit else c

/-- `InvalidateRenderPipeline`. -/
def invalidateRenderPipeline (c : D3D11Context) : D3D11Context :=
  match c.cmdbufState with
  | .renderPipelineReady _ =>
    { c with previousRenderPipelineState := c.cmdbufState, cmdbufState := .renderEncoderActive }
  | _ => c

/-- `InvalidateComputePipeline`. -/
def invalidateComputePipeline (c : D3D11Context) : D3D11Context :=
  match c.cmdbufState with
  | .computePipelineReady => { c with cmdbufState := .computeEncoderActive }
  | _ => c

/-- `set_dirty` of the constant buffers, the samplers, and the shader resource views of a stage. -/
def setStageDirty (c : D3D11Context) (stage : PipelineStage) : D3D11Context :=
  { c with
    constantBuffers := Function.update c.constantBuffers stage (c.constantBuffers stage).setDirty
    samplers := Function.update c.samplers stage (c.samplers stage).setDirty
    bindings := c.bindings.setSRVs stage (c.bindings.srvs stage).setDirty }

/-- All vertex buffers are dirty. -/
def setVertexBuffersDirty (c : D3D11Context) : D3D11Context :=
  { c with
    bindings := { c.bindings with vertexBuffers := c.bindings.vertexBuffers.setDirty } }

/-- All output UAVs are dirty. -/
def setOutputUAVsDirty (c : D3D11Context) : D3D11Context :=
  { c with bindings := { c.bindings with outputUAVs := c.bindings.outputUAVs.setDirty } }

/-- All compute UAVs are dirty. -/
def setComputeUAVsDirty (c : D3D11Context) : D3D11Context :=
  { c with bindings := { c.bindings with computeUAVs := c.bindings.computeUAVs.setDirty } }

/-! ## Shaders, constant buffers, samplers -/

/-- `SetShader`. -/
def setShader (c : D3D11Context) (stage : PipelineStage) (shader : Option ManagedShader) :
    D3D11Context :=
  match shader with
  | some s =>
    if c.shaders stage = some s then c
    else
      let c := { c with shaders := Function.update c.shaders stage (some s) }.setStageDirty stage
      let c := if stage = .vertex then c.setVertexBuffersDirty else c
      if stage = .compute then c.setComputeUAVsDirty.invalidateComputePipeline
      else c.setOutputUAVsDirty.invalidateRenderPipeline
  | none =>
    let c := { c with shaders := Function.update c.shaders stage none }
    if stage = .compute then c.invalidateComputePipeline else c.invalidateRenderPipeline

/-- One slot of `SetConstantBuffer`: the buffer with its `ByteWidth`, and the two arrays at the
slot. -/
def bindConstantBuffer (set : BindingSet ConstantBufferBinding) (slot : Nat)
    (buffer : Option (D3D11Resource × Nat)) (first num : Option Nat) :
    BindingSet ConstantBufferBinding :=
  match buffer with
  | some (b, byteWidth) =>
    match set.bind slot ⟨b, first.getD 0, num.getD (byteWidth >>> 4)⟩ true with
    | (set, true) => set
    | (set, false) =>
      match set.storage slot with
      | none => set
      | some entry =>
        let set :=
          if first.any (· ≠ entry.firstConstant) || num.any (· ≠ entry.numConstants) then
            set.setDirtySlot slot
          else set
        set.assign slot
          ⟨entry.buffer, first.getD entry.firstConstant, num.getD entry.numConstants⟩
  | none => (set.unbind slot).1

/-- The slots of `SetConstantBuffer`, with `pFirstConstant` and `pNumConstants`. -/
def bindConstantBuffers :
    Nat → List (Option (D3D11Resource × Nat) × Option Nat × Option Nat) →
      BindingSet ConstantBufferBinding → BindingSet ConstantBufferBinding
  | _, [], set => set
  | slot, (buffer, first, num) :: buffers, set =>
    bindConstantBuffers (slot + 1) buffers (bindConstantBuffer set slot buffer first num)

/-- `SetConstantBuffer`. -/
def setConstantBuffer (c : D3D11Context) (stage : PipelineStage) (start : Nat)
    (buffers : List (Option (D3D11Resource × Nat) × Option Nat × Option Nat)) : D3D11Context :=
  { c with
    constantBuffers := Function.update c.constantBuffers stage
      (bindConstantBuffers start buffers (c.constantBuffers stage)) }

/-- One slot of `SetSamplers`. -/
def bindSampler (set : BindingSet D3D11SamplerState) (slot : Nat)
    (sampler : Option D3D11SamplerState) : BindingSet D3D11SamplerState :=
  match sampler with
  | some s => (set.bind slot s true).1
  | none => (set.unbind slot).1

/-- Binds samplers from a slot on. -/
def bindSamplers :
    Nat → List (Option D3D11SamplerState) → BindingSet D3D11SamplerState →
      BindingSet D3D11SamplerState
  | _, [], set => set
  | slot, sampler :: samplers, set =>
    bindSamplers (slot + 1) samplers (bindSampler set slot sampler)

/-- `SetSamplers`. -/
def setSamplers (c : D3D11Context) (stage : PipelineStage) (start : Nat)
    (samplers : List (Option D3D11SamplerState)) : D3D11Context :=
  { c with
    samplers := Function.update c.samplers stage (bindSamplers start samplers (c.samplers stage)) }

/-- `SetShaderResource`. -/
def setShaderResource (c : D3D11Context) (stage : PipelineStage) (start : Nat)
    (views : List (Option D3D11View)) : D3D11Context :=
  let bindings := Bindings.setShaderResource stage start views c.bindings
  let changed := (List.range' start views.length).any fun slot =>
    decide ((bindings.srvs stage).storage slot ≠ (c.bindings.srvs stage).storage slot)
  let c := { c with bindings := bindings }
  if stage = .pixel && changed && (c.shaders .pixel).any (·.multisampledSRV) then
    c.invalidateRenderPipeline
  else c

/-! ## Unordered access views and render targets -/

/-- One slot of `CSSetUnorderedAccessViews`, with what it emits. -/
def setComputeUAV (c : D3D11Context) (slot : Nat) (view : Option D3D11View) : D3D11Context :=
  let replaced :=
    match view with
    | some uav => (c.bindings.computeUAVs.bind slot uav true).2
    | none => c.bindings.computeUAVs.testBound slot
  let c := if replaced then c.emitST (.bindOutput true slot view) else c
  { c with bindings := c.bindings.setComputeUAV slot view }

/-- One slot of the loop of `CSSetUnorderedAccessViews` over the views in other slots. -/
def csUnbindOverlappingSlot (c : D3D11Context) (start : Nat) (views : List (Option D3D11View))
    (slot : Nat) : D3D11Context :=
  if start ≤ slot ∧ slot < start + views.length then c
  else if (c.bindings.computeUAVs.storage slot).any fun bound =>
    Bindings.overlapsAny bound views then
    { c.emitST (.bindOutput true slot none) with
      bindings := { c.bindings with computeUAVs := (c.bindings.computeUAVs.unbind slot).1 } }
  else c

/-- `CSSetUnorderedAccessViews`. -/
def csSetUnorderedAccessViews (c : D3D11Context) (start : Nat) (views : List (Option D3D11View)) :
    D3D11Context :=
  if uavSlotCount < start + views.length then c
  else if Bindings.validateMultiOutput [] views = false then c
  else
    (List.range' start views.length).foldl
      (fun c slot => c.setComputeUAV slot views[slot - start]?.join)
      ((List.range uavSlotCount).foldl (fun c slot => c.csUnbindOverlappingSlot start views slot) c)

/-- One slot of the unordered access views of the output merger, with what it emits. -/
def setOutputUAV (c : D3D11Context) (setsRTVs : Bool) (slot : Nat) (view : Option D3D11View) :
    D3D11Context :=
  let replaced :=
    match view with
    | some uav => (c.bindings.outputUAVs.bind slot uav true).2
    | none => c.bindings.outputUAVs.testBound slot
  let c := if replaced then c.emitST (.bindOutput false slot view) else c
  { c with bindings := c.bindings.setOutputUAV setsRTVs slot view }

/-- The output UAVs; the bound range grows and shrinks with them. -/
def setOutputUAVs (c : D3D11Context) (setsRTVs : Bool) (start : Nat)
    (uavs : List (Option D3D11View)) : D3D11Context :=
  let minUAV := if uavs.length = 0 then uavSlotCount else start
  let maxUAV := if uavs.length = 0 then 0 else start + uavs.length
  let first := min minUAV c.bindings.minUAVBinding
  let last := max maxUAV c.bindings.maxUAVBinding
  (List.range' first (last - first)).foldl
    (fun c slot =>
      c.setOutputUAV setsRTVs slot (if start ≤ slot then uavs[slot - start]?.join else none))
    { c with
      bindings := { c.bindings with minUAVBinding := minUAV, maxUAVBinding := maxUAV } }

/-- A render target or the depth stencil view differs, so that the pass is invalidated. -/
def targetsChanged (s t : Bindings) : Bool :=
  (List.range renderTargetCount).any (fun slot => decide (s.rtvs slot ≠ t.rtvs slot)) ||
    decide (s.dsv ≠ t.dsv)

/-- `OMSetRenderTargetsAndUnorderedAccessViews`; `none` keeps the views. -/
def omSetRenderTargetsAndUnorderedAccessViews (c : D3D11Context)
    (rtvs : Option (List (Option D3D11TargetView))) (dsv : Option D3D11TargetView) (start : Nat)
    (uavs : Option (List (Option D3D11View))) : D3D11Context :=
  if Bindings.validateMultiOutput (rtvs.getD []) (uavs.getD []) = false then c
  else
    match rtvs with
    | none =>
      match uavs with
      | none => c
      | some uavs => c.setOutputUAVs false start uavs
    | some rtvs =>
      match Bindings.validateSetRenderTargets (dsv.map D3D11TargetView.description) rtvs with
      | none => c
      | some renderTarget =>
        let bindings := { c.bindings with renderTarget := renderTarget }.setRenderTargets rtvs dsv
        let changed := targetsChanged c.bindings bindings
        let c := { c with bindings := bindings }
        let c :=
          match uavs with
          | none => c
          | some uavs => c.setOutputUAVs true start uavs
        if changed || targetsChanged bindings c.bindings then c.invalidateCurrentPass false else c

/-- The context with the render targets set, before the views. -/
def withRenderTargets (c : D3D11Context) (renderTarget : AttachmentDesc)
    (rtvs : List (Option D3D11TargetView)) (dsv : Option D3D11TargetView) : D3D11Context :=
  { c with bindings := { c.bindings with renderTarget := renderTarget }.setRenderTargets rtvs dsv }

/-- The call does nothing, or sets the views only, or the targets and then the views. -/
theorem omSet_cases (c : D3D11Context) (rtvs : Option (List (Option D3D11TargetView)))
    (dsv : Option D3D11TargetView) (start : Nat) (uavs : Option (List (Option D3D11View))) :
    c.omSetRenderTargetsAndUnorderedAccessViews rtvs dsv start uavs = c ∨
    (∃ views, c.omSetRenderTargetsAndUnorderedAccessViews rtvs dsv start uavs =
      c.setOutputUAVs false start views) ∨
    ∃ renderTarget targets changed,
      c.omSetRenderTargetsAndUnorderedAccessViews rtvs dsv start uavs =
        if changed = true then
          (uavs.elim (c.withRenderTargets renderTarget targets dsv)
            ((c.withRenderTargets renderTarget targets dsv).setOutputUAVs true start)
              ).invalidateCurrentPass false
        else
          uavs.elim (c.withRenderTargets renderTarget targets dsv)
            ((c.withRenderTargets renderTarget targets dsv).setOutputUAVs true start) := by
  unfold omSetRenderTargetsAndUnorderedAccessViews
  split
  · exact .inl rfl
  · cases rtvs with
    | none =>
      cases uavs with
      | none => exact .inl rfl
      | some views => exact .inr (.inl ⟨views, rfl⟩)
    | some targets =>
      dsimp only
      split
      · exact .inl rfl
      · next renderTarget _ =>
        cases uavs with
        | none => exact .inr (.inr ⟨renderTarget, targets, _, rfl⟩)
        | some views => exact .inr (.inr ⟨renderTarget, targets, _, rfl⟩)

end D3D11Context

end Dxmt
