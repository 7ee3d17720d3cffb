import Dxmt.BindingSet
import Dxmt.SubresourceOverlap
import Mathlib.Data.Nat.Bitwise

/-!
# Binding hazards (`ValidateSRVHazard`, `ValidateIAHazard`, `ResolveSRVHazard`, `ResolveIAHazard`)

A resource that is bound for writing must not be bound for reading. A call that binds a reader looks
at the writers that are bound (`validateSRVHazard`, `validateIAHazard`), and a call that binds a
writer unbinds the readers (`resolveSRVHazard`, `resolveIAHazard`), but of those only the ones in
slots with a hazard bit. The state is what the calls keep of the bindings; the commands that they
emit are left out.

A view is of a part of its resource, and the calls compare the words that are kept of two parts. The
statement is about the parts (`D3D11View.Overlaps`). The views of a resource have its bind flags, so
that a reader without the flags of a writer (`hazardsFree`) overlaps none.

The exclusion fails in five ways: a hazard bit is not that of a view bound over another
(`hazard_bit_stale`), `validateSRVHazard` does not look at all slots for unordered access
(`high_slot_unseen`), render targets are not compared with the unordered access views that are kept,
nor the other way round (`kept_target_overlaps`), and the words of two parts do not say that they
have something in common (`long_slice_unseen`).

Results: `Inv.call` is the invariant, `bindings_exclusive` the statement on runs without the five.
-/

namespace Dxmt

/-- The bits of `D3D11_BIND_FLAG` that are looked at. -/
structure BindFlags where
  vertexBuffer : Bool := false
  indexBuffer : Bool := false
  shaderResource : Bool := false
  streamOutput : Bool := false
  renderTarget : Bool := false
  depthStencil : Bool := false
  unorderedAccess : Bool := false
deriving DecidableEq

/-- `hazardsFree`: no flag of a writer. -/
def BindFlags.hazardsFree (f : BindFlags) : Bool :=
  !(f.streamOutput || f.unorderedAccess || f.renderTarget || f.depthStencil)

/-- `D3D11ResourceCommon`: a buffer or a texture, with its flags. -/
structure D3D11Resource where
  id : Nat
  bindFlags : BindFlags
  extent : SubresourceOverlap.Resource
deriving DecidableEq

/-- A shader resource view or an unordered access view of a part of its resource. -/
structure D3D11View where
  id : Nat
  resource : D3D11Resource
  part : SubresourceOverlap.Part resource.extent
deriving DecidableEq

/-- `subset_`, as the constructor of the view writes it. -/
def D3D11View.subset (v : D3D11View) : SubresourceOverlap.ResourceSubsetState := v.part.state

/-- The bind flags of the resource. -/
def D3D11View.bindFlags (v : D3D11View) : BindFlags := v.resource.bindFlags

/-- No stage can write the view's resource. -/
def D3D11View.hazardsFree (v : D3D11View) : Bool := v.bindFlags.hazardsFree

/-- `MTL_RENDER_PASS_ATTACHMENT_DESC`. -/
structure AttachmentDesc where
  renderTargetArrayLength : Nat
  sampleCount : Nat
  width : Nat
  height : Nat
deriving DecidableEq

/-- A render target view or a depth stencil view. -/
structure D3D11TargetView extends D3D11View where
  description : AttachmentDesc
deriving DecidableEq

/-- `CheckOverlap` of two views. -/
def checkOverlap (a b : D3D11View) : Bool :=
  decide (a.resource = b.resource) && a.subset.overlapWith b.subset

/-- `CheckOverlap` of a buffer and a view. -/
def checkOverlapBuffer (buffer : D3D11Resource) (v : D3D11View) : Bool :=
  decide (buffer = v.resource)

/-- The views have a byte or a subresource in common. -/
def D3D11View.Overlaps (a b : D3D11View) : Prop :=
  a.resource = b.resource ∧ ∃ cell, a.part.Denotes cell ∧ b.part.Denotes cell

/-- `checkOverlap` as a relation. -/
abbrev D3D11View.Checked (a b : D3D11View) : Prop := checkOverlap a b = true

/-- Two views of a resource are such that `overlapWith` does not miss what they have in common. -/
def D3D11View.Seen (a b : D3D11View) : Prop :=
  ∀ h : a.resource = b.resource,
    (h ▸ a.part : SubresourceOverlap.Part b.resource.extent).Seen b.part

instance : RedundantBindingTrait D3D11View where
  isRedundant a b := decide (a = b)

/-- `VERTEX_BUFFER_B`. -/
structure VertexBufferBinding where
  buffer : D3D11Resource
  stride : Nat
  offset : Nat
deriving DecidableEq

instance : RedundantBindingTrait VertexBufferBinding where
  isRedundant a b := decide (a.buffer = b.buffer)

/-- `STREAM_OUTPUT_BUFFER_B`. -/
structure StreamOutputBinding where
  buffer : D3D11Resource
  offset : Nat
deriving DecidableEq

instance : RedundantBindingTrait StreamOutputBinding where
  isRedundant a b := decide (a.buffer = b.buffer)

/-- The six stages. -/
inductive PipelineStage where
  | vertex
  | pixel
  | geometry
  | hull
  | domain
  | compute
deriving DecidableEq

/-- The stages of `OMResolveSRVHazard`. -/
def graphicsStages : List PipelineStage := [.vertex, .domain, .hull, .geometry, .pixel]

/-- `D3D11_COMMONSHADER_INPUT_RESOURCE_SLOT_COUNT`. -/
def srvSlotCount : Nat := 128
/-- `D3D11_1_UAV_SLOT_COUNT`. -/
def uavSlotCount : Nat := 64
/-- The vertex buffer slots. -/
def vertexBufferSlotCount : Nat := 16
/-- `D3D11_SO_STREAM_COUNT`. -/
def streamOutputSlotCount : Nat := 4
/-- `D3D11_SIMULTANEOUS_RENDER_TARGET_COUNT`. -/
def renderTargetCount : Nat := 8

/-- What of `D3D11ContextState` is bound to a resource. -/
structure Bindings where
  srvs : PipelineStage → BindingSet D3D11View := fun _ => {}
  computeUAVs : BindingSet D3D11View := {}
  outputUAVs : BindingSet D3D11View := {}
  minUAVBinding : Nat := uavSlotCount
  maxUAVBinding : Nat := 0
  streamOutput : BindingSet StreamOutputBinding := {}
  vertexBuffers : BindingSet VertexBufferBinding := {}
  indexBuffer : Option D3D11Resource := none
  indexBufferFormat : Nat := 0
  indexBufferOffset : Nat := 0
  rtvs : Nat → Option D3D11TargetView := fun _ => none
  numRTVs : Nat := 0
  dsv : Option D3D11TargetView := none
  renderTarget : AttachmentDesc := ⟨0, 1, 0, 0⟩

namespace Bindings

/-! ## Binding a reader -/

/-- `ValidateSRVHazard`. -/
def validateSRVHazard (s : Bindings) (stage : PipelineStage) (view : D3D11View) : Bool :=
  if view.hazardsFree then true
  else if stage = .compute then
    (List.range uavSlotCount).all fun slot =>
      !(s.computeUAVs.storage slot).any (checkOverlap · view)
  else if (List.range s.numRTVs).any fun slot =>
      (s.rtvs slot).any fun rtv => checkOverlap rtv.toD3D11View view then false
  else if s.dsv.any fun dsv => checkOverlap dsv.toD3D11View view then false
  else if view.bindFlags.unorderedAccess then
    -- the slots are those of the render targets that are not used
    (List.range' s.numRTVs (renderTargetCount - s.numRTVs)).all fun slot =>
      !(s.outputUAVs.storage slot).any (checkOverlap · view)
  else if view.bindFlags.streamOutput then
    (List.range streamOutputSlotCount).all fun slot =>
      !(s.streamOutput.storage slot).any fun target => checkOverlapBuffer target.buffer view
  else true

/-- Changes the shader resources of a stage. -/
def setSRVs (s : Bindings) (stage : PipelineStage) (srvs : BindingSet D3D11View) : Bindings :=
  { s with srvs := Function.update s.srvs stage srvs }

/-- One slot of `SetShaderResource`. -/
def bindShaderResource (s : Bindings) (stage : PipelineStage) (slot : Nat)
    (view : Option D3D11View) : Bindings :=
  match view with
  | some v =>
    if s.validateSRVHazard stage v then
      s.setSRVs stage ((s.srvs stage).bind slot v (!v.hazardsFree)).1
    else s.setSRVs stage ((s.srvs stage).unbind slot).1
  | none => s.setSRVs stage ((s.srvs stage).unbind slot).1

/-- `SetShaderResource` from a slot on. -/
def setShaderResource (stage : PipelineStage) : Nat → List (Option D3D11View) → Bindings → Bindings
  | _, [], s => s
  | slot, view :: views, s =>
    setShaderResource stage (slot + 1) views (s.bindShaderResource stage slot view)

/-- `ValidateIAHazard`. -/
def validateIAHazard (s : Bindings) (buffer : D3D11Resource) : Bool :=
  if buffer.bindFlags.hazardsFree then true
  else if buffer.bindFlags.unorderedAccess then
    (List.range' s.minUAVBinding (s.maxUAVBinding - s.minUAVBinding)).all fun slot =>
      !(s.outputUAVs.storage slot).any (checkOverlapBuffer buffer)
  else if buffer.bindFlags.streamOutput then
    (List.range streamOutputSlotCount).all fun slot =>
      !(s.streamOutput.storage slot).any fun target => decide (target.buffer = buffer)
  else true

/-- One slot of `SetVertexBuffers`. Without an offset the stride is zero. -/
def bindVertexBuffer (s : Bindings) (slot : Nat) (buffer : Option D3D11Resource)
    (stride offset : Option Nat) : Bindings :=
  match buffer with
  | some b =>
    if b.bindFlags.vertexBuffer && s.validateIAHazard b then
      let binding : VertexBufferBinding :=
        match offset with
        | some o => ⟨b, stride.getD 0, o⟩
        | none => ⟨b, 0, 0⟩
      match s.vertexBuffers.bind slot binding (!b.bindFlags.hazardsFree) with
      | (vertexBuffers, true) => { s with vertexBuffers := vertexBuffers }
      | (vertexBuffers, false) =>
        match vertexBuffers.storage slot with
        | none => s
        | some entry =>
          let vertexBuffers :=
            if stride.any (· ≠ entry.stride) || offset.any (· ≠ entry.offset) then
              vertexBuffers.setDirtySlot slot
            else vertexBuffers
          { s with
            vertexBuffers := vertexBuffers.assign slot
              ⟨entry.buffer, stride.getD entry.stride, offset.getD entry.offset⟩ }
    else { s with vertexBuffers := (s.vertexBuffers.unbind slot).1 }
  | none => { s with vertexBuffers := (s.vertexBuffers.unbind slot).1 }

/-- `SetVertexBuffers`: the buffers, with `pStrides` and `pOffsets`. -/
def setVertexBuffers : Nat → List (Option D3D11Resource × Option Nat × Option Nat) → Bindings →
    Bindings
  | _, [], s => s
  | slot, (buffer, stride, offset) :: buffers, s =>
    setVertexBuffers (slot + 1) buffers (s.bindVertexBuffer slot buffer stride offset)

/-- `IASetIndexBuffer`. -/
def setIndexBuffer (s : Bindings) (buffer : Option D3D11Resource) (format offset : Nat) :
    Bindings :=
  { s with
    indexBuffer := buffer.filter fun b => b.bindFlags.indexBuffer && s.validateIAHazard b
    indexBufferFormat := format
    indexBufferOffset := offset }

/-! ## Binding a writer -/

/-- `ResolveSRVHazard` of a view or a buffer with these flags. -/
def resolveSRVHazard (s : Bindings) (stage : PipelineStage) (flags : BindFlags)
    (overlaps : D3D11View → Bool) : Bindings :=
  if flags.shaderResource then
    s.setSRVs stage ((s.srvs stage).resolveHazards srvSlotCount overlaps)
  else s

/-- `OMResolveSRVHazard` and `SOResolveSRVHazard`. -/
def omResolveSRVHazard (s : Bindings) (flags : BindFlags) (overlaps : D3D11View → Bool) :
    Bindings :=
  graphicsStages.foldl (fun s stage => s.resolveSRVHazard stage flags overlaps) s

/-- `ResolveIAHazard`. -/
def resolveIAHazard (s : Bindings) (flags : BindFlags) (overlaps : D3D11Resource → Bool) :
    Bindings :=
  let s :=
    if flags.indexBuffer && s.indexBuffer.any overlaps then
      { s with indexBuffer := none, indexBufferFormat := 0, indexBufferOffset := 0 }
    else s
  if flags.vertexBuffer then
    { s with
      vertexBuffers :=
        s.vertexBuffers.resolveHazards vertexBufferSlotCount fun b => overlaps b.buffer }
  else s

/-- `OMResolveRTVHazard`. -/
def omResolveRTVHazard (s : Bindings) (view : D3D11View) : Bindings :=
  if view.bindFlags.renderTarget then
    { s with
      rtvs := fun slot =>
        if slot < s.numRTVs then
          (s.rtvs slot).filter fun rtv => !checkOverlap rtv.toD3D11View view
        else s.rtvs slot }
  else s

/-- The view overlaps one of the views. -/
def overlapsAny (view : D3D11View) (views : List (Option D3D11View)) : Bool :=
  views.any fun w => w.any (checkOverlap view)

/-- No view of the list overlaps one before it. -/
def validateApart : List (Option D3D11View) → Bool
  | [] => true
  | view :: views =>
    (views.all fun w => !w.any fun w => view.any fun v => checkOverlap w v) && validateApart views

/-- `ValidateMultiOutput`. -/
def validateMultiOutput (rtvs : List (Option D3D11TargetView)) (uavs : List (Option D3D11View)) :
    Bool :=
  validateApart (rtvs.map (Option.map D3D11TargetView.toD3D11View)) &&
    (rtvs.all fun rtv => !rtv.any fun rtv =>
      rtv.bindFlags.unorderedAccess && overlapsAny rtv.toD3D11View uavs) &&
    validateApart uavs

/-- The next render target of `ValidateSetRenderTargets`. -/
def validateRenderTarget (ref : AttachmentDesc) (props : AttachmentDesc) : Option AttachmentDesc :=
  if props.sampleCount ≠ ref.sampleCount then none
  else if props.renderTargetArrayLength ≠ ref.renderTargetArrayLength ∧
      max props.renderTargetArrayLength ref.renderTargetArrayLength ≠ 1 then none
  else if ref.width < props.width ∨ ref.height < props.height then none
  else
    some ⟨min ref.renderTargetArrayLength props.renderTargetArrayLength, ref.sampleCount,
      min ref.width props.width, min ref.height props.height⟩

/-- `ValidateSetRenderTargets`; `ref` is what the views so far have in common. -/
def validateSetRenderTargets : Option AttachmentDesc → List (Option D3D11TargetView) →
    Option AttachmentDesc
  | ref, [] => some (ref.getD ⟨0, 1, 0, 0⟩)
  | ref, none :: rtvs => validateSetRenderTargets ref rtvs
  | none, some rtv :: rtvs => validateSetRenderTargets (some rtv.description) rtvs
  | some ref, some rtv :: rtvs =>
    match validateRenderTarget ref rtv.description with
    | none => none
    | some ref => validateSetRenderTargets (some ref) rtvs

/-- One slot of the render targets. -/
def setRTV (s : Bindings) (slot : Nat) (view : Option D3D11TargetView) : Bindings :=
  match view with
  | some rtv =>
    if s.rtvs slot = some rtv then s
    else
      { s with rtvs := Function.update s.rtvs slot (some rtv) }.omResolveSRVHazard rtv.bindFlags
        (checkOverlap · rtv.toD3D11View)
  | none => { s with rtvs := Function.update s.rtvs slot none }

/-- Binds the depth-stencil view, where it changes. -/
def setDSV (s : Bindings) (view : Option D3D11TargetView) : Bindings :=
  match view with
  | some dsv =>
    if s.dsv = some dsv then s
    else
      { s with dsv := some dsv }.omResolveSRVHazard dsv.bindFlags (checkOverlap · dsv.toD3D11View)
  | none => { s with dsv := none }

/-- One slot of the unordered access views. -/
def setOutputUAV (s : Bindings) (setsRTVs : Bool) (slot : Nat) (view : Option D3D11View) :
    Bindings :=
  match view with
  | some uav =>
    match s.outputUAVs.bind slot uav true with
    | (_, false) => s
    | (outputUAVs, true) =>
      let s := { s with outputUAVs := outputUAVs }.omResolveSRVHazard uav.bindFlags
        (checkOverlap · uav)
      let s := s.resolveIAHazard uav.bindFlags (checkOverlapBuffer · uav)
      if setsRTVs then s.omResolveRTVHazard uav else s
  | none => { s with outputUAVs := (s.outputUAVs.unbind slot).1 }

/-- The first `n` slots of the render targets. -/
def setRTVs (s : Bindings) (rtvs : List (Option D3D11TargetView)) (n : Nat) : Bindings :=
  (List.range n).foldl (fun s slot => s.setRTV slot rtvs[slot]?.join) s

/-- `OMSetRenderTargets` without the checks. -/
def setRenderTargets (s : Bindings) (rtvs : List (Option D3D11TargetView))
    (dsv : Option D3D11TargetView) : Bindings :=
  { s.setRTVs rtvs renderTargetCount with numRTVs := rtvs.length }.setDSV dsv

/-- `n` slots of the unordered access views from `first` on. -/
def setOutputUAVSlots (s : Bindings) (setsRTVs : Bool) (view : Nat → Option D3D11View)
    (first n : Nat) : Bindings :=
  (List.range' first n).foldl (fun s slot => s.setOutputUAV setsRTVs slot (view slot)) s

/-- The output UAVs; the bound range grows and shrinks with them. -/
def setOutputUAVs (s : Bindings) (setsRTVs : Bool) (start : Nat) (uavs : List (Option D3D11View)) :
    Bindings :=
  let minUAV := if uavs.length = 0 then uavSlotCount else start
  let maxUAV := if uavs.length = 0 then 0 else start + uavs.length
  let first := min minUAV s.minUAVBinding
  let last := max maxUAV s.maxUAVBinding
  { s with minUAVBinding := minUAV, maxUAVBinding := maxUAV }.setOutputUAVSlots setsRTVs
    (fun slot => if start ≤ slot then uavs[slot - start]?.join else none) first (last - first)

/-- `OMSetRenderTargetsAndUnorderedAccessViews`; `none` keeps the views. -/
def omSetRenderTargetsAndUnorderedAccessViews (s : Bindings)
    (rtvs : Option (List (Option D3D11TargetView))) (dsv : Option D3D11TargetView) (start : Nat)
    (uavs : Option (List (Option D3D11View))) : Bindings :=
  if validateMultiOutput (rtvs.getD []) (uavs.getD []) = false then s
  else
    match rtvs with
    | none =>
      match uavs with
      | none => s
      | some uavs => s.setOutputUAVs false start uavs
    | some rtvs =>
      match validateSetRenderTargets (dsv.map D3D11TargetView.description) rtvs with
      | none => s
      | some renderTarget =>
        let s := { s with renderTarget := renderTarget }.setRenderTargets rtvs dsv
        match uavs with
        | none => s
        | some uavs => s.setOutputUAVs true start uavs

/-- `CSSetUnorderedAccessViews`: first the views in other slots that overlap the new ones. -/
def csUnbindOverlapping (s : Bindings) (start : Nat) (views : List (Option D3D11View)) : Bindings :=
  { s with
    computeUAVs := (List.range uavSlotCount).foldl
      (fun set slot =>
        if start ≤ slot ∧ slot < start + views.length then set
        else if (set.storage slot).any fun bound => overlapsAny bound views then (set.unbind slot).1
        else set)
      s.computeUAVs }

/-- One slot of `CSSetUnorderedAccessViews`. -/
def setComputeUAV (s : Bindings) (slot : Nat) (view : Option D3D11View) : Bindings :=
  match view with
  | some uav =>
    match s.computeUAVs.bind slot uav true with
    | (_, false) => s
    | (computeUAVs, true) =>
      { s with computeUAVs := computeUAVs }.resolveSRVHazard .compute uav.bindFlags
        (checkOverlap · uav)
  | none => { s with computeUAVs := (s.computeUAVs.unbind slot).1 }

/-- `CSSetUnorderedAccessViews`. -/
def csSetUnorderedAccessViews (s : Bindings) (start : Nat) (views : List (Option D3D11View)) :
    Bindings :=
  if uavSlotCount < start + views.length then s
  else if validateMultiOutput [] views = false then s
  else
    (List.range' start views.length).foldl
      (fun s slot => s.setComputeUAV slot views[slot - start]?.join)
      (s.csUnbindOverlapping start views)

/-- One slot of `SOSetTargets`. -/
def setTarget (s : Bindings) (slot : Nat) (buffer : Option D3D11Resource) (offset : Nat) :
    Bindings :=
  match buffer with
  | some b =>
    if b.bindFlags.streamOutput then
      match s.streamOutput.bind slot ⟨b, offset⟩ true with
      | (streamOutput, false) =>
        { s with
          streamOutput :=
            if (streamOutput.storage slot).any (·.offset ≠ offset) then
              (streamOutput.setDirtySlot slot).assign slot ⟨b, offset⟩
            else streamOutput }
      | (streamOutput, true) =>
        let s := { s with streamOutput := streamOutput }.omResolveSRVHazard b.bindFlags
          (checkOverlapBuffer b)
        s.resolveIAHazard b.bindFlags fun r => decide (r = b)
    else { s with streamOutput := (s.streamOutput.unbind slot).1 }
  | none => { s with streamOutput := (s.streamOutput.unbind slot).1 }

/-- `ValidateMultiSOTargets`. -/
def validateMultiSOTargets : List (Option D3D11Resource × Nat) → Bool
  | [] => true
  | (buffer, _) :: targets =>
    (buffer.isNone || targets.all fun t => decide (t.1 ≠ buffer)) && validateMultiSOTargets targets

/-- `SOSetTargets`; no targets unbind the four slots. -/
def soSetTargets (s : Bindings) (targets : List (Option D3D11Resource × Nat)) : Bindings :=
  if validateMultiSOTargets targets = false then s
  else
    (List.range (if targets.length = 0 then streamOutputSlotCount else targets.length)).foldl
      (fun s slot =>
        let target := targets[slot]?.getD (none, 0)
        s.setTarget slot target.1 target.2)
      s

/-! ## Runs -/

/-- The calls that bind what a pass reads or writes. -/
inductive Call where
  | setShaderResource (stage : PipelineStage) (start : Nat) (views : List (Option D3D11View))
  | setVertexBuffers (start : Nat) (buffers : List (Option D3D11Resource × Option Nat × Option Nat))
  | setIndexBuffer (buffer : Option D3D11Resource) (format offset : Nat)
  | soSetTargets (targets : List (Option D3D11Resource × Nat))
  | csSetUnorderedAccessViews (start : Nat) (views : List (Option D3D11View))
  | omSet (rtvs : Option (List (Option D3D11TargetView))) (dsv : Option D3D11TargetView)
      (start : Nat) (uavs : Option (List (Option D3D11View)))

/-- One call. -/
def call (s : Bindings) : Call → Bindings
  | .setShaderResource stage start views => setShaderResource stage start views s
  | .setVertexBuffers start buffers => setVertexBuffers start buffers s
  | .setIndexBuffer buffer format offset => s.setIndexBuffer buffer format offset
  | .soSetTargets targets => s.soSetTargets targets
  | .csSetUnorderedAccessViews start views => s.csSetUnorderedAccessViews start views
  | .omSet rtvs dsv start uavs => s.omSetRenderTargetsAndUnorderedAccessViews rtvs dsv start uavs

/-! ## The statement -/

section Statement

variable (s : Bindings) (Meets : D3D11View → D3D11View → Prop)

/-- A target of the output merger or of stream output overlaps the view. -/
def Written (v : D3D11View) : Prop :=
  (∃ slot rtv, s.rtvs slot = some rtv ∧ Meets rtv.toD3D11View v) ∨
    (∃ dsv, s.dsv = some dsv ∧ Meets dsv.toD3D11View v) ∨
    (∃ slot uav, slot < uavSlotCount ∧ s.outputUAVs.storage slot = some uav ∧ Meets uav v) ∨
    ∃ slot target, slot < streamOutputSlotCount ∧ s.streamOutput.storage slot = some target ∧
      checkOverlapBuffer target.buffer v = true

/-- A compute unordered access view overlaps the view. -/
def WrittenByCompute (v : D3D11View) : Prop :=
  ∃ slot uav, slot < uavSlotCount ∧ s.computeUAVs.storage slot = some uav ∧ Meets uav v

/-- An unordered access view of the output merger is of the buffer. -/
def WrittenBuffer (buffer : D3D11Resource) : Prop :=
  ∃ slot uav, s.outputUAVs.storage slot = some uav ∧ checkOverlapBuffer buffer uav = true

/-- No reader overlaps a writer. -/
structure Apart : Prop where
  graphics : ∀ stage slot v, stage ≠ .compute → slot < srvSlotCount →
    (s.srvs stage).storage slot = some v → ¬ s.Written Meets v
  compute : ∀ slot v, slot < srvSlotCount → (s.srvs .compute).storage slot = some v →
    ¬ s.WrittenByCompute Meets v
  vertex : ∀ slot b, slot < vertexBufferSlotCount → s.vertexBuffers.storage slot = some b →
    ¬ s.WrittenBuffer b.buffer
  index : ∀ b, s.indexBuffer = some b → ¬ s.WrittenBuffer b

/-- No render target overlaps an unordered access view of the output merger. -/
def TargetsApart : Prop :=
  ∀ i rtv, s.rtvs i = some rtv → ∀ slot uav, s.outputUAVs.storage slot = some uav →
    ¬ Meets rtv.toD3D11View uav

/-- The hazard bits are those of the readers that are bound. -/
structure Hazards : Prop where
  srvs : ∀ stage, (s.srvs stage).HazardExact fun v => !v.hazardsFree
  vertexBuffers : s.vertexBuffers.HazardExact fun b => !b.buffer.bindFlags.hazardsFree

/-- Every writer that is bound can conflict. -/
structure WriterHazards : Prop where
  computeUAVs : s.computeUAVs.HazardExact fun _ => true
  outputUAVs : s.outputUAVs.HazardExact fun _ => true
  streamOutput : s.streamOutput.HazardExact fun _ => true

end Statement

/-- Nothing that is bound for reading is bound for writing, by the bytes and subresources that the
views are of. The hazard bits are right. -/
structure Exclusive (s : Bindings) : Prop where
  apart : s.Apart D3D11View.Overlaps
  targets : s.TargetsApart D3D11View.Overlaps
  hazards : s.Hazards
  writerHazards : s.WriterHazards

/-- The condition on a view that `SetShaderResource` takes into a slot: the bit of the slot is right
for it, and it overlaps nothing that `validateSRVHazard` does not look at. -/
structure TakesSRV (s : Bindings) (stage : PipelineStage) (slot : Nat) (v : D3D11View) : Prop where
  flags : v.bindFlags.shaderResource = true
  bit : ∀ old, (s.srvs stage).storage slot = some old → old.hazardsFree = v.hazardsFree
  seen : stage ≠ .compute → ∀ i uav, s.outputUAVs.storage i = some uav →
    i < s.numRTVs ∨ renderTargetCount ≤ i → checkOverlap uav v = false
  exclusive : ¬ (v.bindFlags.unorderedAccess = true ∧ v.bindFlags.streamOutput = true)

/-- The condition on a call. -/
def Meets (s : Bindings) : Call → Prop
  | .setShaderResource stage start views =>
    start + views.length ≤ srvSlotCount ∧ ∀ i v, views[i]? = some (some v) →
      s.validateSRVHazard stage v = true → s.TakesSRV stage (start + i) v
  | .setVertexBuffers start buffers =>
    start + buffers.length ≤ vertexBufferSlotCount ∧ ∀ i b stride offset old,
      buffers[i]? = some (some b, stride, offset) → s.validateIAHazard b = true →
        s.vertexBuffers.storage (start + i) = some old →
          old.buffer.bindFlags.hazardsFree = b.bindFlags.hazardsFree
  | .setIndexBuffer _ _ _ => True
  | .soSetTargets targets => targets.length ≤ streamOutputSlotCount
  | .csSetUnorderedAccessViews _ views => ∀ v, some v ∈ views → v.bindFlags.unorderedAccess = true
  | .omSet rtvs dsv start uavs =>
    (∀ d, dsv = some d → d.bindFlags.depthStencil = true) ∧
      (∀ views, rtvs = some views → views.length ≤ renderTargetCount ∧
        ∀ v, some v ∈ views → v.bindFlags.renderTarget = true ∧
          (uavs = none → ∀ slot uav, s.outputUAVs.storage slot = some uav →
            checkOverlap v.toD3D11View uav = false)) ∧
      ∀ views, uavs = some views → start + views.length ≤ uavSlotCount ∧
        ∀ v, some v ∈ views → v.bindFlags.unorderedAccess = true ∧
          (rtvs = none → ∀ i rtv, s.rtvs i = some rtv → checkOverlap rtv.toD3D11View v = false)

/-- The view is bound for reading. -/
def Reads (s : Bindings) (v : D3D11View) : Prop :=
  ∃ stage slot, (s.srvs stage).storage slot = some v

/-- The view is bound for writing. -/
def Writes (s : Bindings) (v : D3D11View) : Prop :=
  (∃ slot, s.computeUAVs.storage slot = some v) ∨ (∃ slot, s.outputUAVs.storage slot = some v) ∨
    (∃ slot rtv, s.rtvs slot = some rtv ∧ rtv.toD3D11View = v) ∨
    ∃ dsv, s.dsv = some dsv ∧ dsv.toD3D11View = v

/-- The views that a call gives to be read. -/
def Call.readers : Call → List (Option D3D11View)
  | .setShaderResource _ _ views => views
  | _ => []

/-- The views that a call gives to be written. -/
def Call.writers : Call → List (Option D3D11View)
  | .csSetUnorderedAccessViews _ views => views
  | .omSet rtvs dsv _ uavs =>
    let targets := rtvs.elim [] fun rtvs =>
      dsv.map D3D11TargetView.toD3D11View :: rtvs.map (Option.map D3D11TargetView.toD3D11View)
    targets ++ uavs.getD []
  | _ => []

/-- A view that is bound or given to be read. -/
def Reader (s : Bindings) (c : Call) (v : D3D11View) : Prop := s.Reads v ∨ some v ∈ c.readers

/-- A view that is bound or given to be written. -/
def Writer (s : Bindings) (c : Call) (v : D3D11View) : Prop := s.Writes v ∨ some v ∈ c.writers

/-- Of the views that are bound and those that the call gives, no overlap with a writer is missed.
-/
def OverlapsSeen (s : Bindings) (c : Call) : Prop :=
  ∀ writer, s.Writer c writer → ∀ v, s.Reader c v ∨ s.Writer c v → writer.Seen v

/-- A run whose calls meet the conditions. -/
inductive Calls : Bindings → Prop where
  | init : Calls {}
  | call {s : Bindings} (run : Calls s) (c : Call) (meets : s.Meets c) (seen : s.OverlapsSeen c) :
    Calls (s.call c)

end Bindings

/-! ## Overlaps -/

/-- The check does not depend on the order. -/
theorem checkOverlap_comm (a b : D3D11View) : checkOverlap a b = checkOverlap b a := by
  obtain ⟨id, r, p⟩ := a
  obtain ⟨id', r', q⟩ := b
  unfold checkOverlap D3D11View.subset
  by_cases hr : r = r'
  · cases hr
    rw [p.overlapWith_comm q]
  · rw [decide_eq_false hr, decide_eq_false (Ne.symm hr), Bool.false_and, Bool.false_and]

/-- An overlap that is not missed is found. -/
theorem checkOverlap_of_overlaps {a b : D3D11View} (hseen : a.Seen b) (h : a.Overlaps b) :
    checkOverlap a b = true := by
  obtain ⟨id, r, p⟩ := a
  obtain ⟨id', r', q⟩ := b
  obtain ⟨hr, hcells⟩ := h
  cases hr
  unfold checkOverlap D3D11View.subset
  rw [Bool.and_eq_true]
  exact ⟨decide_eq_true rfl, (p.seen_iff q).mp (hseen rfl) hcells⟩

/-- Only views of one resource overlap. -/
theorem resource_of_checkOverlap {a b : D3D11View} (h : checkOverlap a b = true) :
    a.resource = b.resource := by
  unfold checkOverlap at h
  simp only [Bool.and_eq_true, decide_eq_true_eq] at h
  exact h.1

theorem bindFlags_of_checkOverlap {a b : D3D11View} (h : checkOverlap a b = true) :
    a.bindFlags = b.bindFlags :=
  congrArg D3D11Resource.bindFlags (resource_of_checkOverlap h)

theorem resource_of_checkOverlapBuffer {b : D3D11Resource} {v : D3D11View}
    (h : checkOverlapBuffer b v = true) : b = v.resource :=
  of_decide_eq_true h

theorem view_redundant (a b : D3D11View)
    (h : RedundantBindingTrait.isRedundant a b = true) : a = b :=
  of_decide_eq_true h

namespace Bindings

open D3D11View (Checked Overlaps)

variable {s t : Bindings}

/-! ## Fewer bindings -/

/-- Everything that is bound in `t` is bound in `s`. -/
structure Fewer (t s : Bindings) : Prop where
  srvs : ∀ stage slot v, (t.srvs stage).storage slot = some v → (s.srvs stage).storage slot = some v
  computeUAVs : ∀ slot v, t.computeUAVs.storage slot = some v → s.computeUAVs.storage slot = some v
  outputUAVs : ∀ slot v, t.outputUAVs.storage slot = some v → s.outputUAVs.storage slot = some v
  streamOutput : ∀ slot b, t.streamOutput.storage slot = some b →
    s.streamOutput.storage slot = some b
  vertexBuffers : ∀ slot b, t.vertexBuffers.storage slot = some b →
    s.vertexBuffers.storage slot = some b
  indexBuffer : ∀ b, t.indexBuffer = some b → s.indexBuffer = some b
  rtvs : ∀ slot v, t.rtvs slot = some v → s.rtvs slot = some v
  dsv : ∀ v, t.dsv = some v → s.dsv = some v

theorem Fewer.refl (s : Bindings) : Fewer s s :=
  ⟨fun _ _ _ h => h, fun _ _ h => h, fun _ _ h => h, fun _ _ h => h, fun _ _ h => h, fun _ h => h,
    fun _ _ h => h, fun _ h => h⟩

theorem Fewer.trans {u : Bindings} (h : Fewer u t) (h' : Fewer t s) : Fewer u s where
  srvs stage slot v hv := h'.srvs stage slot v (h.srvs stage slot v hv)
  computeUAVs slot v hv := h'.computeUAVs slot v (h.computeUAVs slot v hv)
  outputUAVs slot v hv := h'.outputUAVs slot v (h.outputUAVs slot v hv)
  streamOutput slot b hb := h'.streamOutput slot b (h.streamOutput slot b hb)
  vertexBuffers slot b hb := h'.vertexBuffers slot b (h.vertexBuffers slot b hb)
  indexBuffer b hb := h'.indexBuffer b (h.indexBuffer b hb)
  rtvs slot v hv := h'.rtvs slot v (h.rtvs slot v hv)
  dsv v hv := h'.dsv v (h.dsv v hv)

/-- What is written with fewer bindings is written with all of them. -/
theorem Written.fewer (h : Fewer t s) {v : D3D11View} (hw : t.Written Checked v) :
    s.Written Checked v := by
  rcases hw with ⟨i, r, hr, ho⟩ | ⟨d, hd, ho⟩ | ⟨i, u, hi, hu, ho⟩ | ⟨i, b, hi, hb, ho⟩
  · exact Or.inl ⟨i, r, h.rtvs i r hr, ho⟩
  · exact Or.inr (Or.inl ⟨d, h.dsv d hd, ho⟩)
  · exact Or.inr (Or.inr (Or.inl ⟨i, u, hi, h.outputUAVs i u hu, ho⟩))
  · exact Or.inr (Or.inr (Or.inr ⟨i, b, hi, h.streamOutput i b hb, ho⟩))

/-- Fewer bindings are apart as well. -/
theorem Apart.fewer (hs : s.Apart Checked) (h : Fewer t s) : t.Apart Checked where
  graphics stage slot v hne hlt hv hw :=
    hs.graphics stage slot v hne hlt (h.srvs stage slot v hv) (hw.fewer h)
  compute slot v hlt hv := fun ⟨i, u, hi, hu, ho⟩ =>
    hs.compute slot v hlt (h.srvs .compute slot v hv) ⟨i, u, hi, h.computeUAVs i u hu, ho⟩
  vertex slot b hlt hb := fun ⟨i, u, hu, ho⟩ =>
    hs.vertex slot b hlt (h.vertexBuffers slot b hb) ⟨i, u, h.outputUAVs i u hu, ho⟩
  index b hb := fun ⟨i, u, hu, ho⟩ =>
    hs.index b (h.indexBuffer b hb) ⟨i, u, h.outputUAVs i u hu, ho⟩

/-- A view that is bound has the flag of what it is bound as. -/
structure Flagged (s : Bindings) : Prop where
  srvs : ∀ stage slot v, (s.srvs stage).storage slot = some v → v.bindFlags.shaderResource = true
  computeUAVs : ∀ slot v, s.computeUAVs.storage slot = some v → v.bindFlags.unorderedAccess = true
  outputUAVs : ∀ slot v, s.outputUAVs.storage slot = some v → v.bindFlags.unorderedAccess = true
  streamOutput : ∀ slot b, s.streamOutput.storage slot = some b →
    b.buffer.bindFlags.streamOutput = true
  vertexBuffers : ∀ slot b, s.vertexBuffers.storage slot = some b →
    b.buffer.bindFlags.vertexBuffer = true
  indexBuffer : ∀ b, s.indexBuffer = some b → b.bindFlags.indexBuffer = true
  rtvs : ∀ slot v, s.rtvs slot = some v → v.bindFlags.renderTarget = true
  dsv : ∀ v, s.dsv = some v → v.bindFlags.depthStencil = true

theorem Flagged.fewer (hs : s.Flagged) (h : Fewer t s) : t.Flagged where
  srvs stage slot v hv := hs.srvs stage slot v (h.srvs stage slot v hv)
  computeUAVs slot v hv := hs.computeUAVs slot v (h.computeUAVs slot v hv)
  outputUAVs slot v hv := hs.outputUAVs slot v (h.outputUAVs slot v hv)
  streamOutput slot b hb := hs.streamOutput slot b (h.streamOutput slot b hb)
  vertexBuffers slot b hb := hs.vertexBuffers slot b (h.vertexBuffers slot b hb)
  indexBuffer b hb := hs.indexBuffer b (h.indexBuffer b hb)
  rtvs slot v hv := hs.rtvs slot v (h.rtvs slot v hv)
  dsv v hv := hs.dsv v (h.dsv v hv)

/-- A resource that something writes is not free of hazards. -/
theorem Flagged.not_free (hs : s.Flagged) {v : D3D11View} (hw : s.Written Checked v) :
    v.hazardsFree = false := by
  unfold D3D11View.hazardsFree BindFlags.hazardsFree
  rcases hw with ⟨i, r, hr, ho⟩ | ⟨d, hd, ho⟩ | ⟨i, u, -, hu, ho⟩ | ⟨i, b, -, hb, ho⟩
  · have := hs.rtvs i r hr
    rw [D3D11View.bindFlags, resource_of_checkOverlap ho] at this
    simp [D3D11View.bindFlags, this]
  · have := hs.dsv d hd
    rw [D3D11View.bindFlags, resource_of_checkOverlap ho] at this
    simp [D3D11View.bindFlags, this]
  · have := hs.outputUAVs i u hu
    rw [D3D11View.bindFlags, resource_of_checkOverlap ho] at this
    simp [D3D11View.bindFlags, this]
  · have := hs.streamOutput i b hb
    rw [resource_of_checkOverlapBuffer ho] at this
    simp [D3D11View.bindFlags, this]

/-! ## Resolving -/

/-- The graphics stages lose what overlaps, the compute stage keeps all. -/
theorem omResolveSRVHazard_eq (s : Bindings) (flags : BindFlags) (overlaps : D3D11View → Bool) :
    s.omResolveSRVHazard flags overlaps = { s with
      srvs := fun stage =>
        if stage ≠ .compute ∧ flags.shaderResource = true then
          (s.srvs stage).resolveHazards srvSlotCount overlaps
        else s.srvs stage } := by
  unfold omResolveSRVHazard graphicsStages resolveSRVHazard setSRVs
  cases flags.shaderResource with
  | false => simp
  | true =>
    simp only [List.foldl_cons, List.foldl_nil, if_true]
    congr 1
    funext stage
    cases stage <;> simp [Function.update]

/-- Resolving a hazard binds nothing. -/
theorem fewer_omResolveSRVHazard (s : Bindings) (flags : BindFlags) (overlaps : D3D11View → Bool) :
    Fewer (s.omResolveSRVHazard flags overlaps) s := by
  rw [omResolveSRVHazard_eq]
  refine { Fewer.refl s with srvs := fun stage slot v hv => ?_ }
  dsimp only at hv
  split at hv
  · exact BindingSet.of_storage_resolveHazards hv
  · exact hv

/-- The hazard bits stay exact. -/
theorem Hazards.omResolveSRVHazard (hs : s.Hazards) (flags : BindFlags)
    (overlaps : D3D11View → Bool) : (s.omResolveSRVHazard flags overlaps).Hazards := by
  rw [omResolveSRVHazard_eq]
  refine ⟨fun stage => ?_, hs.vertexBuffers⟩
  dsimp only
  split
  · exact (hs.srvs stage).resolveHazards _ _
  · exact hs.srvs stage

/-- The views that are left in the graphics stages do not overlap what is bound for writing. -/
theorem Hazards.omResolved (hs : s.Hazards) {flags : BindFlags} {overlaps : D3D11View → Bool}
    {stage : PipelineStage} {slot : Nat} {v : D3D11View} (hne : stage ≠ .compute)
    (hlt : slot < srvSlotCount)
    (hv : ((s.omResolveSRVHazard flags overlaps).srvs stage).storage slot = some v)
    (hflags : overlaps v = true → flags = v.bindFlags) (hread : v.bindFlags.shaderResource = true)
    (hfree : v.hazardsFree = false) : overlaps v = false := by
  by_contra hov
  have hov := Bool.eq_true_of_not_eq_false hov
  rw [omResolveSRVHazard_eq] at hv
  dsimp only at hv
  rw [if_pos ⟨hne, by rw [hflags hov]; exact hread⟩] at hv
  have := (hs.srvs stage).not_met hlt hv (by rw [hfree]; rfl)
  rw [hov] at this
  cases this

/-- `ResolveIAHazard` for the index buffer. -/
theorem resolveIAHazard_eq (s : Bindings) (flags : BindFlags) (overlaps : D3D11Resource → Bool) :
    ∃ t : Bindings, Fewer t s ∧ t.srvs = s.srvs ∧ t.vertexBuffers = s.vertexBuffers ∧
      (flags.indexBuffer = true → ∀ b, t.indexBuffer = some b → overlaps b = false) ∧
      s.resolveIAHazard flags overlaps =
        if flags.vertexBuffer then
          { t with
            vertexBuffers :=
              t.vertexBuffers.resolveHazards vertexBufferSlotCount fun b => overlaps b.buffer }
        else t := by
  by_cases h : (flags.indexBuffer && s.indexBuffer.any overlaps) = true
  · refine ⟨{ s with indexBuffer := none, indexBufferFormat := 0, indexBufferOffset := 0 },
      { Fewer.refl s with indexBuffer := nofun }, rfl, rfl, (fun _ _ hb => nomatch hb), ?_⟩
    unfold resolveIAHazard
    rw [if_pos h]
  · refine ⟨s, Fewer.refl s, rfl, rfl, fun hf b hb => ?_, ?_⟩
    · by_contra hov
      exact h (by rw [hf, hb]; exact Bool.eq_true_of_not_eq_false hov)
    · unfold resolveIAHazard
      rw [if_neg h]

theorem fewer_resolveIAHazard (s : Bindings) (flags : BindFlags)
    (overlaps : D3D11Resource → Bool) : Fewer (s.resolveIAHazard flags overlaps) s := by
  obtain ⟨t, ht, -, -, -, heq⟩ := s.resolveIAHazard_eq flags overlaps
  rw [heq]
  split
  · exact { ht with
      vertexBuffers := fun slot b hb =>
        ht.vertexBuffers slot b (BindingSet.of_storage_resolveHazards hb) }
  · exact ht

theorem Hazards.resolveIAHazard (hs : s.Hazards) (flags : BindFlags)
    (overlaps : D3D11Resource → Bool) : (s.resolveIAHazard flags overlaps).Hazards := by
  obtain ⟨t, -, hsrvs, hvb, -, heq⟩ := s.resolveIAHazard_eq flags overlaps
  have ht : t.Hazards := ⟨by rw [hsrvs]; exact hs.srvs, by rw [hvb]; exact hs.vertexBuffers⟩
  rw [heq]
  split
  · exact ⟨ht.srvs, ht.vertexBuffers.resolveHazards _ _⟩
  · exact ht

/-- No vertex buffer that overlaps is left. -/
theorem Hazards.resolvedVertex (hs : s.Hazards) {flags : BindFlags}
    {overlaps : D3D11Resource → Bool} {slot : Nat} {b : VertexBufferBinding}
    (hlt : slot < vertexBufferSlotCount)
    (hb : (s.resolveIAHazard flags overlaps).vertexBuffers.storage slot = some b)
    (hflags : overlaps b.buffer = true → flags = b.buffer.bindFlags)
    (hvertex : b.buffer.bindFlags.vertexBuffer = true)
    (hfree : b.buffer.bindFlags.hazardsFree = false) : overlaps b.buffer = false := by
  by_contra hov
  have hov := Bool.eq_true_of_not_eq_false hov
  have hvf : flags.vertexBuffer = true := by rw [hflags hov]; exact hvertex
  obtain ⟨t, -, -, hvb, -, heq⟩ := s.resolveIAHazard_eq flags overlaps
  rw [heq, if_pos hvf] at hb
  have ht : t.vertexBuffers.HazardExact _ := hvb ▸ hs.vertexBuffers
  have := ht.not_met hlt hb (by rw [hfree]; rfl)
  rw [hov] at this
  cases this

/-- No index buffer that overlaps is left. -/
theorem resolvedIndex {flags : BindFlags} {overlaps : D3D11Resource → Bool} {b : D3D11Resource}
    (hb : (s.resolveIAHazard flags overlaps).indexBuffer = some b)
    (hflags : overlaps b = true → flags = b.bindFlags) (hindex : b.bindFlags.indexBuffer = true) :
    overlaps b = false := by
  obtain ⟨t, -, -, -, hclear, heq⟩ := s.resolveIAHazard_eq flags overlaps
  have hb : t.indexBuffer = some b := by
    rw [heq] at hb
    split at hb <;> exact hb
  by_contra hov
  have hif : flags.indexBuffer = true := by
    rw [hflags (Bool.eq_true_of_not_eq_false hov)]
    exact hindex
  exact hov (hclear hif b hb)

/-! ## Binding a writer keeps the readers apart -/

/-- What holds after every slot that a call changes. -/
structure Sound (s : Bindings) : Prop where
  hazards : s.Hazards
  flagged : s.Flagged
  apart : s.Apart Checked

/-- Fewer bindings are sound as well, where their hazard bits are exact. -/
theorem Sound.fewer (hs : s.Sound) (h : Fewer t s) (hazards : t.Hazards) : t.Sound :=
  ⟨hazards, hs.flagged.fewer h, hs.apart.fewer h⟩

theorem Hazards.congr (hs : s.Hazards) (hsrvs : t.srvs = s.srvs)
    (hvertex : t.vertexBuffers = s.vertexBuffers) : t.Hazards :=
  ⟨by rw [hsrvs]; exact hs.srvs, by rw [hvertex]; exact hs.vertexBuffers⟩

/-- The readers are those of `s`. -/
structure SameReaders (t s : Bindings) : Prop where
  srvs : t.srvs = s.srvs
  computeUAVs : t.computeUAVs = s.computeUAVs
  vertexBuffers : t.vertexBuffers = s.vertexBuffers
  indexBuffer : t.indexBuffer = s.indexBuffer

theorem srvs_setSRVs_self (s : Bindings) (stage : PipelineStage) (set : BindingSet D3D11View) :
    (s.setSRVs stage set).srvs stage = set := by
  simp [Bindings.setSRVs]

theorem srvs_setSRVs_of_ne (s : Bindings) {stage stage' : PipelineStage}
    (set : BindingSet D3D11View) (hne : stage' ≠ stage) :
    (s.setSRVs stage set).srvs stage' = s.srvs stage' := by
  simp [Bindings.setSRVs, hne]

/-- `t` has another writer, whose overlaps with the views are resolved. -/
theorem Sound.resolveViews (hs : s.Sound) (ht : SameReaders t s) (hf : t.Flagged)
    {flags : BindFlags} {overlaps : D3D11View → Bool}
    (hflags : ∀ v, overlaps v = true → flags = v.bindFlags)
    (hnew : ∀ v, t.Written Checked v → s.Written Checked v ∨ overlaps v = true) :
    (t.omResolveSRVHazard flags overlaps).Hazards ∧
      (t.omResolveSRVHazard flags overlaps).Flagged ∧
      (∀ stage slot v, stage ≠ .compute → slot < srvSlotCount →
        ((t.omResolveSRVHazard flags overlaps).srvs stage).storage slot = some v →
          ¬ t.Written Checked v) ∧
      ∀ slot v, slot < srvSlotCount →
        ((t.omResolveSRVHazard flags overlaps).srvs .compute).storage slot = some v →
          ¬ t.WrittenByCompute Checked v := by
  have hfewer := fewer_omResolveSRVHazard t flags overlaps
  have hhaz : t.Hazards := hs.hazards.congr ht.srvs ht.vertexBuffers
  refine ⟨hhaz.omResolveSRVHazard flags overlaps, hf.fewer hfewer,
    fun stage slot v hne hlt hv hw => ?_, fun slot v hlt hv hw => ?_⟩
  · have hold := hfewer.srvs stage slot v hv
    rcases hnew v hw with hw' | hov
    · exact hs.apart.graphics stage slot v hne hlt (ht.srvs ▸ hold) hw'
    · have := hhaz.omResolved hne hlt hv (hflags v) (hf.srvs stage slot v hold) (hf.not_free hw)
      rw [hov] at this
      cases this
  · have hold := hfewer.srvs .compute slot v hv
    obtain ⟨i, u, hi, hu, ho⟩ := hw
    exact hs.apart.compute slot v hlt (ht.srvs ▸ hold) ⟨i, u, hi, ht.computeUAVs ▸ hu, ho⟩

/-- A render target or a depth stencil view. -/
theorem Sound.addTarget (hs : s.Sound) (ht : SameReaders t s) (hf : t.Flagged) {flags : BindFlags}
    {overlaps : D3D11View → Bool} (hflags : ∀ v, overlaps v = true → flags = v.bindFlags)
    (hnew : ∀ v, t.Written Checked v → s.Written Checked v ∨ overlaps v = true)
    (huavs : t.outputUAVs = s.outputUAVs) : (t.omResolveSRVHazard flags overlaps).Sound := by
  obtain ⟨hhaz, hflagged, hgraphics, hcompute⟩ := hs.resolveViews ht hf hflags hnew
  have hfewer := fewer_omResolveSRVHazard t flags overlaps
  refine ⟨hhaz, hflagged, fun stage slot v hne hlt hv hw => ?_, fun slot v hlt hv hw => ?_,
    fun slot b hlt hb hw => ?_, fun b hb hw => ?_⟩
  · exact hgraphics stage slot v hne hlt hv (hw.fewer hfewer)
  · obtain ⟨i, u, hi, hu, ho⟩ := hw
    exact hcompute slot v hlt hv ⟨i, u, hi, hfewer.computeUAVs i u hu, ho⟩
  · obtain ⟨i, u, hu, ho⟩ := hw
    exact hs.apart.vertex slot b hlt (ht.vertexBuffers ▸ hfewer.vertexBuffers slot b hb)
      ⟨i, u, huavs ▸ hfewer.outputUAVs i u hu, ho⟩
  · obtain ⟨i, u, hu, ho⟩ := hw
    exact hs.apart.index b (ht.indexBuffer ▸ hfewer.indexBuffer b hb)
      ⟨i, u, huavs ▸ hfewer.outputUAVs i u hu, ho⟩

/-- An unordered access view or a stream output target, which the input assembler can overlap too.
-/
theorem Sound.addBuffer (hs : s.Sound) (ht : SameReaders t s) (hf : t.Flagged) {flags : BindFlags}
    {overlaps : D3D11View → Bool} {overlapsBuffer : D3D11Resource → Bool}
    (hflags : ∀ v, overlaps v = true → flags = v.bindFlags)
    (hnew : ∀ v, t.Written Checked v → s.Written Checked v ∨ overlaps v = true)
    (hbflags : ∀ b, overlapsBuffer b = true → flags = b.bindFlags)
    (hbnew : ∀ b, t.WrittenBuffer b → s.WrittenBuffer b ∨ overlapsBuffer b = true)
    (hfree : flags.hazardsFree = false) :
    ((t.omResolveSRVHazard flags overlaps).resolveIAHazard flags overlapsBuffer).Sound := by
  obtain ⟨hhaz, hflagged, hgraphics, hcompute⟩ := hs.resolveViews ht hf hflags hnew
  have hfewer := fewer_omResolveSRVHazard t flags overlaps
  have hia := fewer_resolveIAHazard (t.omResolveSRVHazard flags overlaps) flags overlapsBuffer
  have hback := hia.trans hfewer
  refine ⟨hhaz.resolveIAHazard _ _, hflagged.fewer hia, fun stage slot v hne hlt hv hw => ?_,
    fun slot v hlt hv hw => ?_, fun slot b hlt hb hw => ?_, fun b hb hw => ?_⟩
  · exact hgraphics stage slot v hne hlt (hia.srvs stage slot v hv) (hw.fewer hback)
  · obtain ⟨i, u, hi, hu, ho⟩ := hw
    exact hcompute slot v hlt (hia.srvs .compute slot v hv) ⟨i, u, hi, hback.computeUAVs i u hu, ho⟩
  · obtain ⟨i, u, hu, ho⟩ := hw
    rcases hbnew b.buffer ⟨i, u, hback.outputUAVs i u hu, ho⟩ with hw | hov
    · exact hs.apart.vertex slot b hlt (ht.vertexBuffers ▸ hback.vertexBuffers slot b hb) hw
    · have := hhaz.resolvedVertex hlt hb (hbflags b.buffer)
        (hf.vertexBuffers slot b (hback.vertexBuffers slot b hb)) (hbflags b.buffer hov ▸ hfree)
      rw [hov] at this
      cases this
  · obtain ⟨i, u, hu, ho⟩ := hw
    rcases hbnew b ⟨i, u, hback.outputUAVs i u hu, ho⟩ with hw | hov
    · exact hs.apart.index b (ht.indexBuffer ▸ hback.indexBuffer b hb) hw
    · have := resolvedIndex hb (hbflags b) (hf.indexBuffer b (hback.indexBuffer b hb))
      rw [hov] at this
      cases this

/-! ### The slots of the output merger -/

/-- A render target unbinds what reads it. -/
theorem Sound.setRTV (hs : s.Sound) (slot : Nat) {view : Option D3D11TargetView}
    (hview : ∀ rtv, view = some rtv → rtv.bindFlags.renderTarget = true) :
    (s.setRTV slot view).Sound := by
  cases view with
  | none =>
    have hfewer : Fewer { s with rtvs := Function.update s.rtvs slot none } s :=
      { Fewer.refl s with
        rtvs := fun i v hv => by
          by_cases hi : i = slot
          · rw [hi] at hv
            simp at hv
          · simpa [hi] using hv }
    exact hs.fewer hfewer (hs.hazards.congr rfl rfl)
  | some rtv =>
    unfold Bindings.setRTV
    dsimp only
    split
    · exact hs
    · refine hs.addTarget (t := { s with rtvs := Function.update s.rtvs slot (some rtv) })
        ⟨rfl, rfl, rfl, rfl⟩ { hs.flagged with rtvs := fun i v hv => ?_ }
        (fun v hv => ?_) (fun v hw => ?_) rfl
      · by_cases hi : i = slot
        · rw [hi] at hv
          simp only [Function.update_self, Option.some.injEq] at hv
          exact hv ▸ hview rtv rfl
        · exact hs.flagged.rtvs i v (by simpa [hi] using hv)
      · exact (bindFlags_of_checkOverlap hv).symm
      · rcases hw with ⟨i, r, hr, ho⟩ | hw
        · by_cases hi : i = slot
          · rw [hi] at hr
            simp only [Function.update_self, Option.some.injEq] at hr
            exact Or.inr (by rw [checkOverlap_comm, hr]; exact ho)
          · exact Or.inl (Or.inl ⟨i, r, by simpa [hi] using hr, ho⟩)
        · exact Or.inl (Or.inr hw)

/-- A depth-stencil view unbinds what reads it. -/
theorem Sound.setDSV (hs : s.Sound) {view : Option D3D11TargetView}
    (hview : ∀ dsv, view = some dsv → dsv.bindFlags.depthStencil = true) :
    (s.setDSV view).Sound := by
  cases view with
  | none =>
    have hfewer : Fewer { s with dsv := none } s :=
      { Fewer.refl s with dsv := fun v hv => absurd hv.symm (Option.some_ne_none v) }
    exact hs.fewer hfewer (hs.hazards.congr rfl rfl)
  | some dsv =>
    unfold Bindings.setDSV
    dsimp only
    split
    · exact hs
    · refine hs.addTarget (t := { s with dsv := some dsv }) ⟨rfl, rfl, rfl, rfl⟩
        { hs.flagged with dsv := fun v hv => ?_ } (fun v hv => (bindFlags_of_checkOverlap hv).symm)
        (fun v hw => ?_) rfl
      · cases hv
        exact hview dsv rfl
      · rcases hw with hw | ⟨d, hd, ho⟩ | hw
        · exact Or.inl (Or.inl hw)
        · cases hd
          exact Or.inr (by rw [checkOverlap_comm]; exact ho)
        · exact Or.inl (Or.inr (Or.inr hw))

theorem fewer_omResolveRTVHazard (s : Bindings) (view : D3D11View) :
    Fewer (s.omResolveRTVHazard view) s := by
  unfold omResolveRTVHazard
  split
  · refine { Fewer.refl s with rtvs := fun i v hv => ?_ }
    dsimp only at hv
    split at hv
    · exact (Option.filter_eq_some_iff.mp hv).1
    · exact hv
  · exact Fewer.refl s

theorem Sound.omResolveRTVHazard (hs : s.Sound) (view : D3D11View) :
    (s.omResolveRTVHazard view).Sound := by
  refine hs.fewer (fewer_omResolveRTVHazard s view) ?_
  unfold Bindings.omResolveRTVHazard
  split
  · exact hs.hazards.congr rfl rfl
  · exact hs.hazards

theorem storage_of_update {α : Type*} {f : Nat → Option α} {slot i : Nat} {a b : α}
    (h : Function.update f slot (some a) i = some b) : i = slot ∧ b = a ∨ f i = some b := by
  by_cases hi : i = slot
  · rw [hi, Function.update_self] at h
    exact Or.inl ⟨hi, (Option.some.inj h).symm⟩
  · rw [Function.update_of_ne hi] at h
    exact Or.inr h

theorem storage_of_update_none {α : Type*} {f : Nat → Option α} {slot i : Nat} {b : α}
    (h : Function.update f slot none i = some b) : f i = some b := by
  by_cases hi : i = slot
  · rw [hi, Function.update_self] at h
    cases h
  · rwa [Function.update_of_ne hi] at h

theorem fewer_unbindOutputUAV (s : Bindings) (slot : Nat) :
    Fewer { s with outputUAVs := (s.outputUAVs.unbind slot).1 } s :=
  { Fewer.refl s with
    outputUAVs := fun _ _ hv => storage_of_update_none (BindingSet.storage_unbind _ _ ▸ hv) }

/-- An output UAV unbinds what reads it. -/
theorem Sound.setOutputUAV (hs : s.Sound) (setsRTVs : Bool) (slot : Nat) {view : Option D3D11View}
    (hview : ∀ uav, view = some uav → uav.bindFlags.unorderedAccess = true) :
    (s.setOutputUAV setsRTVs slot view).Sound := by
  cases view with
  | none => exact hs.fewer (fewer_unbindOutputUAV s slot) (hs.hazards.congr rfl rfl)
  | some uav =>
    have hflag := hview uav rfl
    unfold Bindings.setOutputUAV
    dsimp only
    cases hb : s.outputUAVs.bind slot uav true with
    | mk outputUAVs replaced =>
      cases replaced with
      | false => exact hs
      | true =>
        dsimp only
        have hstorage : outputUAVs.storage = Function.update s.outputUAVs.storage slot
            (some uav) := by
          have := BindingSet.storage_bind view_redundant s.outputUAVs slot uav true
          rwa [hb] at this
        have hsound : (({ s with outputUAVs := outputUAVs }.omResolveSRVHazard uav.bindFlags
            (checkOverlap · uav)).resolveIAHazard uav.bindFlags
              (checkOverlapBuffer · uav)).Sound := by
          refine hs.addBuffer (t := { s with outputUAVs := outputUAVs }) ⟨rfl, rfl, rfl, rfl⟩
            { hs.flagged with outputUAVs := fun i v hv => ?_ }
            (fun v hv => (bindFlags_of_checkOverlap hv).symm) (fun v hw => ?_) (fun b hb => ?_)
            (fun b hw => ?_) ?_
          · rcases storage_of_update (hstorage ▸ hv) with ⟨-, rfl⟩ | hold
            · exact hflag
            · exact hs.flagged.outputUAVs i v hold
          · rcases hw with hw | hw | ⟨i, u, hi, hu, ho⟩ | hw
            · exact Or.inl (Or.inl hw)
            · exact Or.inl (Or.inr (Or.inl hw))
            · rcases storage_of_update (hstorage ▸ hu) with ⟨-, rfl⟩ | hold
              · exact Or.inr (by rw [checkOverlap_comm]; exact ho)
              · exact Or.inl (Or.inr (Or.inr (Or.inl ⟨i, u, hi, hold, ho⟩)))
            · exact Or.inl (Or.inr (Or.inr (Or.inr hw)))
          · exact congrArg D3D11Resource.bindFlags (resource_of_checkOverlapBuffer hb).symm
          · obtain ⟨i, u, hu, ho⟩ := hw
            rcases storage_of_update (hstorage ▸ hu) with ⟨-, rfl⟩ | hold
            · exact Or.inr ho
            · exact Or.inl ⟨i, u, hold, ho⟩
          · unfold BindFlags.hazardsFree
            simp [hflag]
        split
        · exact hsound.omResolveRTVHazard uav
        · exact hsound

/-! ### Stream output and compute -/

/-- The same readers against writers that overlap no more than before. -/
theorem Sound.writers (hs : s.Sound) (ht : SameReaders t s) (hf : t.Flagged)
    (hnew : ∀ v, t.Written Checked v → s.Written Checked v)
    (hbnew : ∀ b, t.WrittenBuffer b → s.WrittenBuffer b) : t.Sound := by
  refine ⟨hs.hazards.congr ht.srvs ht.vertexBuffers, hf, fun stage slot v hne hlt hv hw => ?_,
    fun slot v hlt hv hw => ?_, fun slot b hlt hb hw => ?_, fun b hb hw => ?_⟩
  · exact hs.apart.graphics stage slot v hne hlt (ht.srvs ▸ hv) (hnew v hw)
  · obtain ⟨i, u, hi, hu, ho⟩ := hw
    exact hs.apart.compute slot v hlt (ht.srvs ▸ hv) ⟨i, u, hi, ht.computeUAVs ▸ hu, ho⟩
  · exact hs.apart.vertex slot b hlt (ht.vertexBuffers ▸ hb) (hbnew b.buffer hw)
  · exact hs.apart.index b (ht.indexBuffer ▸ hb) (hbnew b hw)

theorem fewer_unbindTarget (s : Bindings) (slot : Nat) :
    Fewer { s with streamOutput := (s.streamOutput.unbind slot).1 } s :=
  { Fewer.refl s with
    streamOutput := fun _ _ hb => storage_of_update_none (BindingSet.storage_unbind _ _ ▸ hb) }

/-- The targets of `t` are those of `s`, and one on the buffer `b`. -/
theorem written_of_target {slot offset : Nat} {b : D3D11Resource}
    {streamOutput : BindingSet StreamOutputBinding}
    (hstorage : streamOutput.storage =
      Function.update s.streamOutput.storage slot (some ⟨b, offset⟩)) {v : D3D11View}
    (hw : Written { s with streamOutput := streamOutput } Checked v) :
    s.Written Checked v ∨ checkOverlapBuffer b v = true := by
  rcases hw with hw | hw | hw | ⟨i, target, hi, ht, ho⟩
  · exact Or.inl (Or.inl hw)
  · exact Or.inl (Or.inr (Or.inl hw))
  · exact Or.inl (Or.inr (Or.inr (Or.inl hw)))
  · rcases storage_of_update (hstorage ▸ ht) with ⟨-, rfl⟩ | hold
    · exact Or.inr ho
    · exact Or.inl (Or.inr (Or.inr (Or.inr ⟨i, target, hi, hold, ho⟩)))

theorem Flagged.setTarget (hf : s.Flagged) {slot offset : Nat} {b : D3D11Resource}
    {streamOutput : BindingSet StreamOutputBinding} (hb : b.bindFlags.streamOutput = true)
    (hstorage : streamOutput.storage =
      Function.update s.streamOutput.storage slot (some ⟨b, offset⟩)) :
    Flagged { s with streamOutput := streamOutput } :=
  { hf with
    streamOutput := fun i target ht => by
      rcases storage_of_update (hstorage ▸ ht) with ⟨-, rfl⟩ | hold
      · exact hb
      · exact hf.streamOutput i target hold }

/-- A stream-output target unbinds what reads it. -/
theorem Sound.setTarget (hs : s.Sound) {slot : Nat} (hlt : slot < streamOutputSlotCount)
    (buffer : Option D3D11Resource) (offset : Nat) : (s.setTarget slot buffer offset).Sound := by
  have hnone := hs.fewer (fewer_unbindTarget s slot) (hs.hazards.congr rfl rfl)
  cases buffer with
  | none => exact hnone
  | some b =>
    unfold Bindings.setTarget
    dsimp only
    by_cases hflag : b.bindFlags.streamOutput = true
    · rw [if_pos hflag]
      cases hb : s.streamOutput.bind slot ⟨b, offset⟩ true with
      | mk streamOutput replaced =>
        cases replaced with
        | false =>
          obtain ⟨rfl, entry, hentry, hsame⟩ := BindingSet.bind_kept hb
          obtain rfl : entry.buffer = b := of_decide_eq_true hsame
          dsimp only
          split
          · refine hs.writers ⟨rfl, rfl, rfl, rfl⟩ (hs.flagged.setTarget hflag rfl)
              (fun v hw => ?_) fun _ hw => hw
            rcases written_of_target rfl hw with hw | ho
            · exact hw
            · exact Or.inr (Or.inr (Or.inr ⟨slot, entry, hlt, hentry, ho⟩))
          · exact hs
        | true =>
          have hstorage := BindingSet.bind_replaced hb
          refine hs.addBuffer (t := { s with streamOutput := streamOutput }) ⟨rfl, rfl, rfl, rfl⟩
            (hs.flagged.setTarget hflag hstorage)
            (fun v hv => congrArg D3D11Resource.bindFlags (resource_of_checkOverlapBuffer hv))
            (fun v hw => written_of_target hstorage hw)
            (fun r hr => congrArg D3D11Resource.bindFlags (of_decide_eq_true hr).symm)
            (fun r hw => Or.inl hw) ?_
          unfold BindFlags.hazardsFree
          simp [hflag]
    · rw [if_neg hflag]
      exact hnone

theorem Sound.setSRVs (hs : s.Sound) {stage : PipelineStage} {set : BindingSet D3D11View}
    (hexact : set.HazardExact fun v => !v.hazardsFree)
    (hflags : ∀ slot v, set.storage slot = some v → v.bindFlags.shaderResource = true)
    (hgraphics : stage ≠ .compute → ∀ slot v, slot < srvSlotCount → set.storage slot = some v →
      ¬ s.Written Checked v)
    (hcompute : stage = .compute → ∀ slot v, slot < srvSlotCount → set.storage slot = some v →
      ¬ s.WrittenByCompute Checked v) : (s.setSRVs stage set).Sound := by
  have hcases : ∀ stage', (stage' = stage ∧ (s.setSRVs stage set).srvs stage' = set) ∨
      (s.setSRVs stage set).srvs stage' = s.srvs stage' := by
    intro stage'
    by_cases hst : stage' = stage
    · exact Or.inl ⟨hst, by rw [hst]; exact srvs_setSRVs_self ..⟩
    · exact Or.inr (srvs_setSRVs_of_ne s set hst)
  refine ⟨⟨fun stage' => ?_, hs.hazards.vertexBuffers⟩,
    { hs.flagged with srvs := fun stage' slot v hv => ?_ },
    ⟨fun stage' slot v hne hlt hv => ?_, fun slot v hlt hv => ?_, hs.apart.vertex, hs.apart.index⟩⟩
  · rcases hcases stage' with ⟨-, heq⟩ | heq
    · rw [heq]
      exact hexact
    · rw [heq]
      exact hs.hazards.srvs stage'
  · rcases hcases stage' with ⟨-, heq⟩ | heq
    · exact hflags slot v (heq ▸ hv)
    · exact hs.flagged.srvs stage' slot v (heq ▸ hv)
  · rcases hcases stage' with ⟨hst, heq⟩ | heq
    · exact hgraphics (hst ▸ hne) slot v hlt (heq ▸ hv)
    · exact hs.apart.graphics stage' slot v hne hlt (heq ▸ hv)
  · rcases hcases .compute with ⟨hst, heq⟩ | heq
    · exact hcompute hst.symm slot v hlt (heq ▸ hv)
    · exact hs.apart.compute slot v hlt (heq ▸ hv)

/-- Fewer views in one stage. -/
theorem Sound.fewerSRVs (hs : s.Sound) {stage : PipelineStage} {set : BindingSet D3D11View}
    (hexact : set.HazardExact fun v => !v.hazardsFree)
    (hfewer : ∀ slot v, set.storage slot = some v → (s.srvs stage).storage slot = some v) :
    (s.setSRVs stage set).Sound := by
  refine hs.setSRVs hexact (fun slot v hv => hs.flagged.srvs stage slot v (hfewer slot v hv))
    (fun hne slot v hlt hv => hs.apart.graphics stage slot v hne hlt (hfewer slot v hv))
    fun hst slot v hlt hv => ?_
  cases hst
  exact hs.apart.compute slot v hlt (hfewer slot v hv)

/-- Another compute unordered access view, with the views of the stage that do not overlap it. -/
theorem Sound.addComputeUAV (hs : s.Sound) {slot : Nat} {uav : D3D11View}
    {computeUAVs set : BindingSet D3D11View}
    (hstorage : computeUAVs.storage = Function.update s.computeUAVs.storage slot (some uav))
    (hflag : uav.bindFlags.unorderedAccess = true)
    (hexact : set.HazardExact fun v => !v.hazardsFree)
    (hfewer : ∀ slot v, set.storage slot = some v → (s.srvs .compute).storage slot = some v)
    (hleft : ∀ slot v, slot < srvSlotCount → set.storage slot = some v →
      checkOverlap v uav = false) :
    (Bindings.setSRVs { s with computeUAVs := computeUAVs } .compute set).Sound := by
  have hwritten : ∀ v, s.Written Checked v ↔
      (Bindings.setSRVs { s with computeUAVs := computeUAVs } .compute set).Written Checked v :=
        fun _ => Iff.rfl
  have hother : ∀ stage, stage ≠ .compute →
      (Bindings.setSRVs { s with computeUAVs := computeUAVs } .compute set).srvs stage =
        s.srvs stage :=
    fun stage hne => srvs_setSRVs_of_ne _ set hne
  have hself : (Bindings.setSRVs { s with computeUAVs := computeUAVs } .compute set).srvs
      .compute = set :=
    srvs_setSRVs_self ..
  refine ⟨⟨fun stage => ?_, hs.hazards.vertexBuffers⟩,
    { hs.flagged with
      srvs := fun stage i v hv => ?_
      computeUAVs := fun i v hv => ?_ },
    ⟨fun stage i v hne hlt hv => ?_, fun i v hlt hv hw => ?_, hs.apart.vertex, hs.apart.index⟩⟩
  · by_cases hst : stage = .compute
    · rw [hst, hself]
      exact hexact
    · rw [hother stage hst]
      exact hs.hazards.srvs stage
  · by_cases hst : stage = .compute
    · rw [hst, hself] at hv
      exact hs.flagged.srvs .compute i v (hfewer i v hv)
    · rw [hother stage hst] at hv
      exact hs.flagged.srvs stage i v hv
  · rcases storage_of_update (hstorage ▸ hv) with ⟨-, rfl⟩ | hold
    · exact hflag
    · exact hs.flagged.computeUAVs i v hold
  · rw [hother stage hne] at hv
    exact fun hw => hs.apart.graphics stage i v hne hlt hv ((hwritten v).mpr hw)
  · rw [hself] at hv
    obtain ⟨j, u, hj, hu, ho⟩ := hw
    rcases storage_of_update (hstorage ▸ hu) with ⟨-, rfl⟩ | hold
    · have hno := hleft i v hlt hv
      rw [checkOverlap_comm] at hno
      exact Bool.noConfusion (hno.symm.trans ho)
    · exact hs.apart.compute i v hlt (hfewer i v hv) ⟨j, u, hj, hold, ho⟩

theorem fewer_unbindComputeUAV (s : Bindings) (slot : Nat) :
    Fewer { s with computeUAVs := (s.computeUAVs.unbind slot).1 } s :=
  { Fewer.refl s with
    computeUAVs := fun _ _ hv => storage_of_update_none (BindingSet.storage_unbind _ _ ▸ hv) }

/-- A compute UAV unbinds what the compute stage reads. -/
theorem Sound.setComputeUAV (hs : s.Sound) (slot : Nat) {view : Option D3D11View}
    (hview : ∀ uav, view = some uav → uav.bindFlags.unorderedAccess = true) :
    (s.setComputeUAV slot view).Sound := by
  cases view with
  | none => exact hs.fewer (fewer_unbindComputeUAV s slot) (hs.hazards.congr rfl rfl)
  | some uav =>
    have hflag := hview uav rfl
    unfold Bindings.setComputeUAV
    dsimp only
    cases hb : s.computeUAVs.bind slot uav true with
    | mk computeUAVs replaced =>
      cases replaced with
      | false => exact hs
      | true =>
        have hstorage : computeUAVs.storage =
            Function.update s.computeUAVs.storage slot (some uav) := by
          have := BindingSet.storage_bind view_redundant s.computeUAVs slot uav true
          rwa [hb] at this
        have hexact := hs.hazards.srvs .compute
        dsimp only
        unfold resolveSRVHazard
        split
        · show (Bindings.setSRVs { s with computeUAVs := computeUAVs } .compute
            ((s.srvs .compute).resolveHazards srvSlotCount (checkOverlap · uav))).Sound
          have hfewer := fun i v => BindingSet.of_storage_resolveHazards (s := s.srvs .compute)
            (n := srvSlotCount) (p := (checkOverlap · uav)) (i := i) (e := v)
          refine hs.addComputeUAV hstorage hflag (hexact.resolveHazards _ _) hfewer
            fun i v hlt hv => ?_
          by_contra hov
          have hfree : v.hazardsFree = false := by
            unfold D3D11View.hazardsFree BindFlags.hazardsFree
            rw [bindFlags_of_checkOverlap (Bool.eq_true_of_not_eq_false hov)]
            simp [hflag]
          have := hexact.not_met hlt hv (by rw [hfree]; rfl)
          exact hov this
        · next hread =>
          have hself : ({ s with computeUAVs := computeUAVs } : Bindings) =
              Bindings.setSRVs { s with computeUAVs := computeUAVs } .compute
                (s.srvs .compute) := by
            unfold Bindings.setSRVs
            rw [Function.update_eq_self]
          rw [hself]
          refine hs.addComputeUAV hstorage hflag hexact (fun _ _ hv => hv) fun i v _ hv => ?_
          -- a view of the resource would have the flag
          by_contra hov
          have hsame := bindFlags_of_checkOverlap (Bool.eq_true_of_not_eq_false hov)
          exact hread (hsame ▸ hs.flagged.srvs .compute i v hv)

theorem fewer_csUnbindOverlapping (s : Bindings) (start : Nat) (views : List (Option D3D11View)) :
    Fewer (s.csUnbindOverlapping start views) s := by
  have hfewer : ∀ (slots : List Nat) (set : BindingSet D3D11View),
      (∀ i v, set.storage i = some v → s.computeUAVs.storage i = some v) →
      ∀ i v, (slots.foldl (fun set slot =>
        if start ≤ slot ∧ slot < start + views.length then set
        else if (set.storage slot).any fun bound => overlapsAny bound views then (set.unbind slot).1
        else set) set).storage i = some v → s.computeUAVs.storage i = some v := by
    intro slots
    induction slots with
    | nil => exact fun set h => h
    | cons slot slots ih =>
      intro set h
      refine ih _ fun i v hv => ?_
      dsimp only at hv
      split at hv
      · exact h i v hv
      · split at hv
        · rw [BindingSet.storage_unbind] at hv
          exact h i v (storage_of_update_none hv)
        · exact h i v hv
  exact { Fewer.refl s with computeUAVs := hfewer _ _ fun _ _ hv => hv }

theorem Sound.csUnbindOverlapping (hs : s.Sound) (start : Nat) (views : List (Option D3D11View)) :
    (s.csUnbindOverlapping start views).Sound :=
  hs.fewer (fewer_csUnbindOverlapping s start views) (hs.hazards.congr rfl rfl)

/-! ## Binding a reader -/

/-- Where the views of the output merger are: `uavRange` for the loop of `setOutputUAVs`, `rtvNum`
for the one of `validateSRVHazard`. -/
structure Placed (s : Bindings) : Prop where
  uavRange : ∀ slot uav, s.outputUAVs.storage slot = some uav →
    s.minUAVBinding ≤ slot ∧ slot < s.maxUAVBinding
  rtvNum : ∀ slot rtv, s.rtvs slot = some rtv → slot < s.numRTVs ∧ slot < renderTargetCount

/-- A view that is taken overlaps nothing that is bound for writing. -/
theorem not_written_of_validate (hf : s.Flagged) (hp : s.Placed) {stage : PipelineStage}
    {slot : Nat} {v : D3D11View} (hval : s.validateSRVHazard stage v = true)
    (htakes : s.TakesSRV stage slot v) :
    (stage ≠ .compute → ¬ s.Written Checked v) ∧
    (stage = .compute → ¬ s.WrittenByCompute Checked v) := by
  unfold validateSRVHazard at hval
  by_cases hfree : v.hazardsFree = true
  · refine ⟨fun _ hw => ?_, fun _ hw => ?_⟩
    · rw [hf.not_free hw] at hfree
      cases hfree
    · obtain ⟨i, u, -, hu, ho⟩ := hw
      have hflag := hf.computeUAVs i u hu
      rw [bindFlags_of_checkOverlap ho] at hflag
      unfold D3D11View.hazardsFree BindFlags.hazardsFree at hfree
      simp [hflag] at hfree
  · rw [if_neg hfree] at hval
    by_cases hst : stage = .compute
    · rw [if_pos hst] at hval
      refine ⟨fun hne => absurd hst hne, fun _ ⟨i, u, hi, hu, ho⟩ => ?_⟩
      have := List.all_eq_true.mp hval i (List.mem_range.mpr hi)
      simp [hu, ho] at this
    · rw [if_neg hst] at hval
      refine ⟨fun _ hw => ?_, fun h => absurd h hst⟩
      split at hval
      · cases hval
      · next hrtvs =>
        split at hval
        · cases hval
        · next hdsv =>
          rcases hw with ⟨i, r, hr, ho⟩ | ⟨d, hd, ho⟩ | ⟨i, u, hi, hu, ho⟩ | ⟨i, b, hi, hb, ho⟩
          · exact hrtvs (List.any_eq_true.mpr
              ⟨i, List.mem_range.mpr (hp.rtvNum i r hr).1, by rw [hr]; exact ho⟩)
          · exact hdsv (by rw [hd]; exact ho)
          · have hflag : v.bindFlags.unorderedAccess = true :=
              bindFlags_of_checkOverlap ho ▸ hf.outputUAVs i u hu
            rw [if_pos hflag] at hval
            by_cases hseen : i < s.numRTVs ∨ renderTargetCount ≤ i
            · exact Bool.noConfusion ((htakes.seen hst i u hu hseen).symm.trans ho)
            · have := List.all_eq_true.mp hval i (List.mem_range'_1.mpr (by omega))
              simp [hu, ho] at this
          · have hflag : v.bindFlags.streamOutput = true := by
              have := hf.streamOutput i b hb
              rwa [resource_of_checkOverlapBuffer ho] at this
            rw [if_neg fun h => htakes.exclusive ⟨h, hflag⟩, if_pos hflag] at hval
            have := List.all_eq_true.mp hval i (List.mem_range.mpr hi)
            simp [hb, ho] at this

/-- A view that is written somewhere is not bound. -/
theorem Sound.bindShaderResource (hs : s.Sound) (hp : s.Placed) {stage : PipelineStage} {slot : Nat}
    {view : Option D3D11View}
    (htakes : ∀ v, view = some v → s.validateSRVHazard stage v = true → s.TakesSRV stage slot v) :
    (s.bindShaderResource stage slot view).Sound := by
  have hexact := hs.hazards.srvs stage
  have hunbind : (s.setSRVs stage ((s.srvs stage).unbind slot).1).Sound :=
    hs.fewerSRVs (hexact.unbind slot) fun i v hv =>
      storage_of_update_none (BindingSet.storage_unbind _ _ ▸ hv)
  cases view with
  | none => exact hunbind
  | some v =>
    unfold Bindings.bindShaderResource
    dsimp only
    split
    · next hval =>
      have ht := htakes v rfl hval
      obtain ⟨hgraphics, hcompute⟩ := not_written_of_validate hs.flagged hp hval ht
      have hstorage := BindingSet.storage_bind view_redundant (s.srvs stage) slot v (!v.hazardsFree)
      refine hs.setSRVs
        (hexact.bind rfl fun old hold => by rw [ht.bit old hold]) (fun i w hw => ?_)
        (fun hne i w hlt hw => ?_) fun hst i w hlt hw => ?_
      · rcases storage_of_update (hstorage ▸ hw) with ⟨-, rfl⟩ | hold
        · exact ht.flags
        · exact hs.flagged.srvs stage i w hold
      · rcases storage_of_update (hstorage ▸ hw) with ⟨-, rfl⟩ | hold
        · exact hgraphics hne
        · exact hs.apart.graphics stage i w hne hlt hold
      · rcases storage_of_update (hstorage ▸ hw) with ⟨-, rfl⟩ | hold
        · exact hcompute hst
        · exact hs.apart.compute i w hlt (hst ▸ hold)
    · exact hunbind

/-- A buffer that the input assembler takes is not written by the output merger. -/
theorem not_written_of_validateIA (hf : s.Flagged) (hp : s.Placed) {b : D3D11Resource}
    (hval : s.validateIAHazard b = true) : ¬ s.WrittenBuffer b := by
  rintro ⟨i, u, hu, ho⟩
  have hflag : b.bindFlags.unorderedAccess = true := by
    rw [resource_of_checkOverlapBuffer ho]
    exact hf.outputUAVs i u hu
  have hfree : b.bindFlags.hazardsFree = false := by
    unfold BindFlags.hazardsFree
    simp [hflag]
  unfold validateIAHazard at hval
  rw [if_neg (by rw [hfree]; exact Bool.false_ne_true), if_pos hflag] at hval
  obtain ⟨hmin, hmax⟩ := hp.uavRange i u hu
  have := List.all_eq_true.mp hval i (List.mem_range'_1.mpr (by omega))
  simp [hu, ho] at this

theorem Sound.withVertexBuffers (hs : s.Sound) {set : BindingSet VertexBufferBinding}
    (hexact : set.HazardExact fun b => !b.buffer.bindFlags.hazardsFree)
    (hset : ∀ slot b, set.storage slot = some b → b.buffer.bindFlags.vertexBuffer = true ∧
      (slot < vertexBufferSlotCount → ¬ s.WrittenBuffer b.buffer)) :
    Sound { s with vertexBuffers := set } :=
  ⟨⟨hs.hazards.srvs, hexact⟩,
    { hs.flagged with vertexBuffers := fun slot b hb => (hset slot b hb).1 },
    ⟨hs.apart.graphics, hs.apart.compute, fun slot b hlt hb => (hset slot b hb).2 hlt,
      hs.apart.index⟩⟩

/-- What a slot of `SetVertexBuffers` comes to: nothing else changes, and a buffer that is new in
the slot was validated. -/
theorem bindVertexBuffer_spec (hexact : s.vertexBuffers.HazardExact
      fun b => !b.buffer.bindFlags.hazardsFree) {slot : Nat} {buffer : Option D3D11Resource}
    (stride offset : Option Nat)
    (hbit : ∀ b old, buffer = some b → s.validateIAHazard b = true →
      s.vertexBuffers.storage slot = some old →
        old.buffer.bindFlags.hazardsFree = b.bindFlags.hazardsFree) :
    ∃ set : BindingSet VertexBufferBinding,
      s.bindVertexBuffer slot buffer stride offset = { s with vertexBuffers := set } ∧
        (∀ i, i ≠ slot → set.storage i = s.vertexBuffers.storage i) ∧
        (set.HazardExact fun b => !b.buffer.bindFlags.hazardsFree) ∧
        ∀ b, set.storage slot = some b →
          (∃ old, s.vertexBuffers.storage slot = some old ∧ old.buffer = b.buffer) ∨
            b.buffer.bindFlags.vertexBuffer = true ∧ s.validateIAHazard b.buffer = true := by
  have hnone : ∀ i, i ≠ slot →
      (s.vertexBuffers.unbind slot).1.storage i = s.vertexBuffers.storage i := fun i hi => by
    rw [BindingSet.storage_unbind, Function.update_of_ne hi]
  have hempty : ∀ b, (s.vertexBuffers.unbind slot).1.storage slot ≠ some b := fun b => by
    rw [BindingSet.storage_unbind, Function.update_self]
    nofun
  cases buffer with
  | none =>
    exact ⟨_, rfl, hnone, hexact.unbind slot, fun b hb => absurd hb (hempty b)⟩
  | some b =>
    unfold Bindings.bindVertexBuffer
    dsimp only
    by_cases htake : (b.bindFlags.vertexBuffer && s.validateIAHazard b) = true
    · rw [if_pos htake]
      rw [Bool.and_eq_true] at htake
      generalize hbinding : (match offset with
        | some o => (⟨b, stride.getD 0, o⟩ : VertexBufferBinding)
        | none => ⟨b, 0, 0⟩) = binding
      have hbuffer : binding.buffer = b := by
        rw [← hbinding]
        cases offset <;> rfl
      have hbind : (s.vertexBuffers.bind slot binding (!b.bindFlags.hazardsFree)).1.HazardExact
          fun b => !b.buffer.bindFlags.hazardsFree :=
        hexact.bind (by rw [hbuffer]) fun old hold => by rw [hbuffer, hbit b old rfl htake.2 hold]
      cases hb : s.vertexBuffers.bind slot binding (!b.bindFlags.hazardsFree) with
      | mk set replaced =>
        rw [hb] at hbind
        cases replaced with
        | true =>
          have hstorage := BindingSet.bind_replaced hb
          refine ⟨set, rfl, fun i hi => ?_, hbind, fun c hc => Or.inr ?_⟩
          · rw [hstorage, Function.update_of_ne hi]
          · rw [hstorage, Function.update_self, Option.some.injEq] at hc
            rw [← hc, hbuffer]
            exact htake
        | false =>
          obtain ⟨rfl, entry, hentry, -⟩ := BindingSet.bind_kept hb
          have hdirty : ∀ dirty : Bool,
              ((if dirty then s.vertexBuffers.setDirtySlot slot else s.vertexBuffers).HazardExact
                fun b => !b.buffer.bindFlags.hazardsFree) ∧
              (if dirty then s.vertexBuffers.setDirtySlot slot else s.vertexBuffers).storage =
                s.vertexBuffers.storage := by
            intro dirty
            cases dirty
            · exact ⟨hexact, rfl⟩
            · exact ⟨hexact.setDirtySlot slot, rfl⟩
          dsimp only
          rw [hentry]
          dsimp only
          generalize (stride.any (· ≠ entry.stride) || offset.any (· ≠ entry.offset)) = dirty
          obtain ⟨hdirtyExact, hdirtyStorage⟩ := hdirty dirty
          refine ⟨_, rfl, fun i hi => ?_, ?_, fun c hc => Or.inl ⟨entry, rfl, ?_⟩⟩
          · rw [BindingSet.storage_assign, Function.update_of_ne hi, hdirtyStorage]
          · have hold := hdirtyStorage ▸ hentry
            exact hdirtyExact.assign hold rfl
          · rw [BindingSet.storage_assign, Function.update_self, Option.some.injEq] at hc
            rw [← hc]
    · rw [if_neg htake]
      exact ⟨_, rfl, hnone, hexact.unbind slot, fun c hc => absurd hc (hempty c)⟩

/-- A vertex buffer that is written somewhere is not bound. -/
theorem Sound.bindVertexBuffer (hs : s.Sound) (hp : s.Placed) {slot : Nat}
    {set : BindingSet VertexBufferBinding} (hother : ∀ i, i ≠ slot →
      set.storage i = s.vertexBuffers.storage i)
    (hexact : set.HazardExact fun b => !b.buffer.bindFlags.hazardsFree)
    (hnew : ∀ b, set.storage slot = some b →
      (∃ old, s.vertexBuffers.storage slot = some old ∧ old.buffer = b.buffer) ∨
        b.buffer.bindFlags.vertexBuffer = true ∧ s.validateIAHazard b.buffer = true) :
    Sound { s with vertexBuffers := set } := by
  refine hs.withVertexBuffers hexact fun i b hb => ?_
  by_cases hi : i = slot
  · rw [hi] at hb
    rcases hnew b hb with ⟨old, hold, hbuf⟩ | ⟨hflag, hval⟩
    · rw [← hbuf]
      exact ⟨hs.flagged.vertexBuffers slot old hold,
        fun hlt => hs.apart.vertex slot old (hi ▸ hlt) hold⟩
    · exact ⟨hflag, fun _ => not_written_of_validateIA hs.flagged hp hval⟩
  · rw [hother i hi] at hb
    exact ⟨hs.flagged.vertexBuffers i b hb, fun hlt => hs.apart.vertex i b hlt hb⟩

/-- An index buffer that is written somewhere is not bound. -/
theorem Sound.setIndexBuffer (hs : s.Sound) (hp : s.Placed) (buffer : Option D3D11Resource)
    (format offset : Nat) : (s.setIndexBuffer buffer format offset).Sound := by
  have hb : ∀ b, (s.setIndexBuffer buffer format offset).indexBuffer = some b →
      b.bindFlags.indexBuffer = true ∧ s.validateIAHazard b = true := fun b h => by
    have := (Option.filter_eq_some_iff.mp h).2
    rwa [Bool.and_eq_true] at this
  exact ⟨⟨hs.hazards.srvs, hs.hazards.vertexBuffers⟩,
    { hs.flagged with indexBuffer := fun b h => (hb b h).1 },
    ⟨hs.apart.graphics, hs.apart.compute, hs.apart.vertex,
      fun b h => not_written_of_validateIA hs.flagged hp (hb b h).2⟩⟩

/-! ## The bits of the writers -/

/-- The writers are those of `s`. -/
structure SameWriters (t s : Bindings) : Prop where
  computeUAVs : t.computeUAVs = s.computeUAVs
  outputUAVs : t.outputUAVs = s.outputUAVs
  streamOutput : t.streamOutput = s.streamOutput

theorem WriterHazards.congr (hs : s.WriterHazards) (h : SameWriters t s) : t.WriterHazards :=
  ⟨h.computeUAVs ▸ hs.computeUAVs, h.outputUAVs ▸ hs.outputUAVs, h.streamOutput ▸ hs.streamOutput⟩

theorem sameWriters_omResolveSRVHazard (s : Bindings) (flags : BindFlags)
    (overlaps : D3D11View → Bool) : SameWriters (s.omResolveSRVHazard flags overlaps) s := by
  rw [omResolveSRVHazard_eq]
  exact ⟨rfl, rfl, rfl⟩

theorem sameWriters_resolveIAHazard (s : Bindings) (flags : BindFlags)
    (overlaps : D3D11Resource → Bool) : SameWriters (s.resolveIAHazard flags overlaps) s := by
  unfold resolveIAHazard
  dsimp only
  split <;> split <;> exact ⟨rfl, rfl, rfl⟩

theorem sameWriters_omResolveRTVHazard (s : Bindings) (view : D3D11View) :
    SameWriters (s.omResolveRTVHazard view) s := by
  unfold omResolveRTVHazard
  split <;> exact ⟨rfl, rfl, rfl⟩

theorem sameWriters_setRTV (s : Bindings) (slot : Nat) (view : Option D3D11TargetView) :
    SameWriters (s.setRTV slot view) s := by
  unfold setRTV
  split
  · split
    · exact ⟨rfl, rfl, rfl⟩
    · rw [omResolveSRVHazard_eq]
      exact ⟨rfl, rfl, rfl⟩
  · exact ⟨rfl, rfl, rfl⟩

theorem sameWriters_setDSV (s : Bindings) (view : Option D3D11TargetView) :
    SameWriters (s.setDSV view) s := by
  unfold setDSV
  split
  · split
    · exact ⟨rfl, rfl, rfl⟩
    · rw [omResolveSRVHazard_eq]
      exact ⟨rfl, rfl, rfl⟩
  · exact ⟨rfl, rfl, rfl⟩

/-- The hazard bits of what is written stay exact. -/
theorem WriterHazards.setOutputUAV (hs : s.WriterHazards) (setsRTVs : Bool) (slot : Nat)
    (view : Option D3D11View) : (s.setOutputUAV setsRTVs slot view).WriterHazards := by
  cases view with
  | none => exact ⟨hs.computeUAVs, hs.outputUAVs.unbind slot, hs.streamOutput⟩
  | some uav =>
    have hbind : BindingSet.HazardExact (fun _ => true) (s.outputUAVs.bind slot uav true).1 :=
      hs.outputUAVs.bind rfl fun _ _ => rfl
    unfold Bindings.setOutputUAV
    dsimp only
    cases hb : s.outputUAVs.bind slot uav true with
    | mk outputUAVs replaced =>
      rw [hb] at hbind
      cases replaced with
      | false => exact hs
      | true =>
        have hnew : WriterHazards { s with outputUAVs := outputUAVs } :=
          ⟨hs.computeUAVs, hbind, hs.streamOutput⟩
        have hresolved := (hnew.congr (sameWriters_omResolveSRVHazard _ uav.bindFlags
          (checkOverlap · uav))).congr (sameWriters_resolveIAHazard _ uav.bindFlags
          (checkOverlapBuffer · uav))
        dsimp only
        split
        · exact hresolved.congr (sameWriters_omResolveRTVHazard _ uav)
        · exact hresolved

theorem WriterHazards.setComputeUAV (hs : s.WriterHazards) (slot : Nat) (view : Option D3D11View) :
    (s.setComputeUAV slot view).WriterHazards := by
  cases view with
  | none => exact ⟨hs.computeUAVs.unbind slot, hs.outputUAVs, hs.streamOutput⟩
  | some uav =>
    have hbind : BindingSet.HazardExact (fun _ => true) (s.computeUAVs.bind slot uav true).1 :=
      hs.computeUAVs.bind rfl fun _ _ => rfl
    unfold Bindings.setComputeUAV resolveSRVHazard
    dsimp only
    cases hb : s.computeUAVs.bind slot uav true with
    | mk computeUAVs replaced =>
      rw [hb] at hbind
      cases replaced with
      | false => exact hs
      | true =>
        dsimp only
        split <;> exact ⟨hbind, hs.outputUAVs, hs.streamOutput⟩

theorem WriterHazards.csUnbindOverlapping (hs : s.WriterHazards) (start : Nat)
    (views : List (Option D3D11View)) : (s.csUnbindOverlapping start views).WriterHazards := by
  refine ⟨?_, hs.outputUAVs, hs.streamOutput⟩
  have hloop : ∀ (slots : List Nat) (set : BindingSet D3D11View),
      (set.HazardExact fun _ => true) → (slots.foldl (fun set slot =>
        if start ≤ slot ∧ slot < start + views.length then set
        else if (set.storage slot).any fun bound => overlapsAny bound views then (set.unbind slot).1
        else set) set).HazardExact fun _ => true := by
    intro slots
    induction slots with
    | nil => exact fun set h => h
    | cons slot slots ih =>
      intro set h
      refine ih _ ?_
      dsimp only
      split
      · exact h
      · split
        · exact h.unbind slot
        · exact h
  exact hloop _ _ hs.computeUAVs

theorem WriterHazards.setTarget (hs : s.WriterHazards) (slot : Nat) (buffer : Option D3D11Resource)
    (offset : Nat) : (s.setTarget slot buffer offset).WriterHazards := by
  have hnone : WriterHazards { s with streamOutput := (s.streamOutput.unbind slot).1 } :=
    ⟨hs.computeUAVs, hs.outputUAVs, hs.streamOutput.unbind slot⟩
  cases buffer with
  | none => exact hnone
  | some b =>
    have hbind : BindingSet.HazardExact (fun _ => true)
        (s.streamOutput.bind slot ⟨b, offset⟩ true).1 :=
      hs.streamOutput.bind rfl fun _ _ => rfl
    unfold Bindings.setTarget
    dsimp only
    split
    · cases hb : s.streamOutput.bind slot ⟨b, offset⟩ true with
      | mk streamOutput replaced =>
        rw [hb] at hbind
        cases replaced with
        | false =>
          obtain ⟨rfl, entry, hentry, -⟩ := BindingSet.bind_kept hb
          dsimp only
          split
          · exact ⟨hs.computeUAVs, hs.outputUAVs, hs.streamOutput.assign hentry rfl⟩
          · exact hs
        | true =>
          have hnew : WriterHazards { s with streamOutput := streamOutput } :=
            ⟨hs.computeUAVs, hs.outputUAVs, hbind⟩
          exact (hnew.congr (sameWriters_omResolveSRVHazard _ b.bindFlags
            (checkOverlapBuffer b))).congr (sameWriters_resolveIAHazard _ b.bindFlags _)
    · exact hnone

/-! ## The calls -/

/-- What holds of the bindings in every run. -/
structure Inv (s : Bindings) : Prop where
  sound : s.Sound
  placed : s.Placed
  targets : s.TargetsApart Checked

/-- Nothing is bound at first. -/
theorem Inv.init : Inv {} where
  sound :=
    ⟨⟨fun _ _ => rfl, fun _ => rfl⟩,
      ⟨(fun _ _ _ h => nomatch h), (fun _ _ h => nomatch h), (fun _ _ h => nomatch h),
        (fun _ _ h => nomatch h), (fun _ _ h => nomatch h), (fun _ h => nomatch h),
        (fun _ _ h => nomatch h), (fun _ h => nomatch h)⟩,
      ⟨(fun _ _ _ _ _ h => nomatch h), (fun _ _ _ h => nomatch h), (fun _ _ _ h => nomatch h),
        (fun _ h => nomatch h)⟩⟩
  placed := ⟨(fun _ _ h => nomatch h), (fun _ _ h => nomatch h)⟩
  targets _ _ h := nomatch h

/-- The views of the output merger are those of `s`. -/
structure SameOutputs (t s : Bindings) : Prop where
  outputUAVs : t.outputUAVs = s.outputUAVs
  minUAVBinding : t.minUAVBinding = s.minUAVBinding
  maxUAVBinding : t.maxUAVBinding = s.maxUAVBinding
  rtvs : t.rtvs = s.rtvs
  numRTVs : t.numRTVs = s.numRTVs

theorem SameOutputs.refl (s : Bindings) : SameOutputs s s := ⟨rfl, rfl, rfl, rfl, rfl⟩

theorem SameOutputs.trans {u : Bindings} (h : SameOutputs u t) (h' : SameOutputs t s) :
    SameOutputs u s :=
  ⟨h.outputUAVs.trans h'.outputUAVs, h.minUAVBinding.trans h'.minUAVBinding,
    h.maxUAVBinding.trans h'.maxUAVBinding, h.rtvs.trans h'.rtvs, h.numRTVs.trans h'.numRTVs⟩

theorem Placed.same (hp : s.Placed) (h : SameOutputs t s) : t.Placed := by
  refine ⟨fun slot uav hu => ?_, fun slot rtv hr => ?_⟩
  · rw [h.minUAVBinding, h.maxUAVBinding]
    exact hp.uavRange slot uav (h.outputUAVs ▸ hu)
  · rw [h.numRTVs]
    exact hp.rtvNum slot rtv (h.rtvs ▸ hr)

/-- A call that leaves the outputs alone keeps the invariant. -/
theorem Inv.same (hs : s.Inv) (ht : t.Sound) (h : SameOutputs t s) : t.Inv := by
  refine ⟨ht, hs.placed.same h, fun i rtv hr slot uav hu => ?_⟩
  exact hs.targets i rtv (h.rtvs ▸ hr) slot uav (h.outputUAVs ▸ hu)

theorem bindShaderResource_eq (s : Bindings) (stage : PipelineStage) (slot : Nat)
    (view : Option D3D11View) : ∃ set, s.bindShaderResource stage slot view = s.setSRVs stage set ∧
      ∀ i, i ≠ slot → set.storage i = (s.srvs stage).storage i := by
  have hnone : ∀ i, i ≠ slot →
      ((s.srvs stage).unbind slot).1.storage i = (s.srvs stage).storage i := fun i hi => by
    rw [BindingSet.storage_unbind, Function.update_of_ne hi]
  unfold bindShaderResource
  split
  · split
    · refine ⟨_, rfl, fun i hi => ?_⟩
      rw [BindingSet.storage_bind view_redundant, Function.update_of_ne hi]
    · exact ⟨_, rfl, hnone⟩
  · exact ⟨_, rfl, hnone⟩

/-- One view after the other. -/
theorem Sound.setShaderResource (stage : PipelineStage) {views : List (Option D3D11View)}
    {start : Nat} (hs : s.Sound) (hp : s.Placed)
    (htakes : ∀ i v, views[i]? = some (some v) → s.validateSRVHazard stage v = true →
      s.TakesSRV stage (start + i) v) :
    (setShaderResource stage start views s).Sound ∧
      SameOutputs (setShaderResource stage start views s) s := by
  induction views generalizing start s with
  | nil => exact ⟨hs, SameOutputs.refl s⟩
  | cons view views ih =>
    have hhead : (s.bindShaderResource stage start view).Sound :=
      hs.bindShaderResource hp fun v hv => htakes 0 v (congrArg some hv)
    obtain ⟨set, heq, hother⟩ := s.bindShaderResource_eq stage start view
    have hsame : SameOutputs (s.bindShaderResource stage start view) s := by
      rw [heq]
      exact ⟨rfl, rfl, rfl, rfl, rfl⟩
    obtain ⟨hsound, hout⟩ := @ih _ (start + 1) hhead (hp.same hsame) fun i v hv hval => by
      rw [heq] at hval ⊢
      have ht := htakes (i + 1) v hv hval
      rw [← Nat.add_assoc, Nat.add_right_comm] at ht
      refine ⟨ht.flags, fun old hold => ht.bit old ?_, ht.seen, ht.exclusive⟩
      rw [srvs_setSRVs_self, hother _ (by omega)] at hold
      exact hold
    exact ⟨hsound, hout.trans hsame⟩

/-- One vertex buffer after the other. -/
theorem Sound.setVertexBuffers {buffers : List (Option D3D11Resource × Option Nat × Option Nat)}
    {start : Nat} (hs : s.Sound) (hp : s.Placed)
    (hbit : ∀ i b stride offset old, buffers[i]? = some (some b, stride, offset) →
      s.validateIAHazard b = true → s.vertexBuffers.storage (start + i) = some old →
        old.buffer.bindFlags.hazardsFree = b.bindFlags.hazardsFree) :
    (Bindings.setVertexBuffers start buffers s).Sound ∧
      SameOutputs (Bindings.setVertexBuffers start buffers s) s := by
  induction buffers generalizing start s with
  | nil => exact ⟨hs, SameOutputs.refl s⟩
  | cons head buffers ih =>
    obtain ⟨buffer, stride, offset⟩ := head
    obtain ⟨set, heq, hother, hexact, hnew⟩ := bindVertexBuffer_spec hs.hazards.vertexBuffers
      stride offset fun b old hb =>
        hbit 0 b stride offset old (congrArg (fun x => some (x, stride, offset)) hb)
    rw [Nat.add_zero] at heq hother
    have hhead : Sound { s with vertexBuffers := set } := hs.bindVertexBuffer hp hother hexact hnew
    have hsame : SameOutputs { s with vertexBuffers := set } s := ⟨rfl, rfl, rfl, rfl, rfl⟩
    have htail := @ih _ (start + 1) hhead (hp.same hsame)
      fun i b stride offset old hb hval hold => by
        refine hbit (i + 1) b stride offset old hb hval ?_
        rw [← Nat.add_assoc, Nat.add_right_comm, ← hother _ (by omega)]
        exact hold
    unfold Bindings.setVertexBuffers
    rw [heq]
    exact ⟨htail.1, htail.2.trans hsame⟩

/-- What every step keeps holds after the loop. -/
theorem foldl_induction {α : Type*} {motive : Bindings → Prop} {f : Bindings → α → Bindings}
    {xs : List α} (h : motive s) (hstep : ∀ t x, x ∈ xs → motive t → motive (f t x)) :
    motive (xs.foldl f s) := by
  induction xs generalizing s with
  | nil => exact h
  | cons x xs ih =>
    exact ih (hstep s x List.mem_cons_self h) fun t y hy => hstep t y (List.mem_cons_of_mem _ hy)

theorem sameOutputs_omResolveSRVHazard (s : Bindings) (flags : BindFlags)
    (overlaps : D3D11View → Bool) : SameOutputs (s.omResolveSRVHazard flags overlaps) s := by
  rw [omResolveSRVHazard_eq]
  exact ⟨rfl, rfl, rfl, rfl, rfl⟩

theorem sameOutputs_resolveIAHazard (s : Bindings) (flags : BindFlags)
    (overlaps : D3D11Resource → Bool) : SameOutputs (s.resolveIAHazard flags overlaps) s := by
  unfold resolveIAHazard
  dsimp only
  split <;> split <;> exact ⟨rfl, rfl, rfl, rfl, rfl⟩

theorem sameOutputs_setTarget (s : Bindings) (slot : Nat) (buffer : Option D3D11Resource)
    (offset : Nat) : SameOutputs (s.setTarget slot buffer offset) s := by
  unfold setTarget
  split
  · split
    · split
      · exact ⟨rfl, rfl, rfl, rfl, rfl⟩
      · exact (sameOutputs_resolveIAHazard ..).trans ((sameOutputs_omResolveSRVHazard ..).trans
          ⟨rfl, rfl, rfl, rfl, rfl⟩)
    · exact ⟨rfl, rfl, rfl, rfl, rfl⟩
  · exact ⟨rfl, rfl, rfl, rfl, rfl⟩

/-- Stream-output targets keep the invariant. -/
theorem Inv.soSetTargets (hs : s.Inv) {targets : List (Option D3D11Resource × Nat)}
    (hlen : targets.length ≤ streamOutputSlotCount) : (s.soSetTargets targets).Inv := by
  unfold Bindings.soSetTargets
  split
  · exact hs
  · refine foldl_induction hs fun t slot hslot ht => ?_
    have hlt : slot < streamOutputSlotCount := by
      have := List.mem_range.mp hslot
      split at this <;> omega
    exact ht.same (ht.sound.setTarget hlt _ _) (sameOutputs_setTarget ..)

theorem sameOutputs_setComputeUAV (s : Bindings) (slot : Nat) (view : Option D3D11View) :
    SameOutputs (s.setComputeUAV slot view) s := by
  unfold setComputeUAV resolveSRVHazard
  split
  · split
    · exact SameOutputs.refl s
    · split <;> exact ⟨rfl, rfl, rfl, rfl, rfl⟩
  · exact ⟨rfl, rfl, rfl, rfl, rfl⟩

theorem mem_of_getElem?_join {α : Type*} {xs : List (Option α)} {i : Nat} {x : α}
    (h : xs[i]?.join = some x) : some x ∈ xs := by
  cases hi : xs[i]? with
  | none =>
    rw [hi] at h
    cases h
  | some y =>
    rw [hi] at h
    exact List.mem_of_getElem? (hi.trans (congrArg some h))

theorem lt_of_getElem?_join {α : Type*} {xs : List (Option α)} {i : Nat} {x : α}
    (h : xs[i]?.join = some x) : i < xs.length := by
  by_contra hlt
  rw [List.getElem?_eq_none (Nat.le_of_not_lt hlt)] at h
  cases h

/-- Compute UAVs keep the invariant. -/
theorem Inv.csSetUnorderedAccessViews (hs : s.Inv) {start : Nat} {views : List (Option D3D11View)}
    (hviews : ∀ v, some v ∈ views → v.bindFlags.unorderedAccess = true) :
    (s.csSetUnorderedAccessViews start views).Inv := by
  unfold Bindings.csSetUnorderedAccessViews
  split
  · exact hs
  · split
    · exact hs
    · refine foldl_induction ?_ fun t slot _ ht => ?_
      · exact hs.same (hs.sound.csUnbindOverlapping start views) ⟨rfl, rfl, rfl, rfl, rfl⟩
      · exact ht.same (ht.sound.setComputeUAV slot fun uav h => hviews uav (mem_of_getElem?_join h))
          (sameOutputs_setComputeUAV ..)

/-! ### The output merger -/

/-- The views of the output merger but for the render targets. -/
structure SameUAVs (t s : Bindings) : Prop where
  outputUAVs : t.outputUAVs = s.outputUAVs
  minUAVBinding : t.minUAVBinding = s.minUAVBinding
  maxUAVBinding : t.maxUAVBinding = s.maxUAVBinding

/-- One slot changes, and no UAV does. -/
theorem setRTV_spec (s : Bindings) (slot : Nat) (view : Option D3D11TargetView) :
    (s.setRTV slot view).rtvs = Function.update s.rtvs slot view ∧ SameUAVs
    (s.setRTV slot view) s := by
  unfold setRTV
  split
  · next rtv =>
    split
    · next h =>
      refine ⟨?_, ⟨rfl, rfl, rfl⟩⟩
      rw [← h, Function.update_eq_self]
    · have hsame := sameOutputs_omResolveSRVHazard
        { s with rtvs := Function.update s.rtvs slot (some rtv) } rtv.bindFlags
        (checkOverlap · rtv.toD3D11View)
      exact ⟨hsame.rtvs, ⟨hsame.outputUAVs, hsame.minUAVBinding, hsame.maxUAVBinding⟩⟩
  · exact ⟨rfl, ⟨rfl, rfl, rfl⟩⟩

theorem setDSV_same (s : Bindings) (view : Option D3D11TargetView) :
    SameOutputs (s.setDSV view) s := by
  unfold setDSV
  split
  · next dsv =>
    split
    · exact SameOutputs.refl s
    · have hsame := sameOutputs_omResolveSRVHazard { s with dsv := some dsv } dsv.bindFlags
        (checkOverlap · dsv.toD3D11View)
      exact hsame.trans ⟨rfl, rfl, rfl, rfl, rfl⟩
  · exact ⟨rfl, rfl, rfl, rfl, rfl⟩

/-- The loop over the render targets. -/
theorem Sound.setRTVs (hs : s.Sound) {rtvs : List (Option D3D11TargetView)}
    (hviews : ∀ v, some v ∈ rtvs → v.bindFlags.renderTarget = true) (n : Nat) :
    (s.setRTVs rtvs n).Sound ∧ SameUAVs (s.setRTVs rtvs n) s ∧
      ∀ i, (s.setRTVs rtvs n).rtvs i = if i < n then rtvs[i]?.join else s.rtvs i := by
  induction n with
  | zero => exact ⟨hs, ⟨rfl, rfl, rfl⟩, fun i => rfl⟩
  | succ n ih =>
    obtain ⟨hsound, hsame, hrtvs⟩ := ih
    have hsucc : s.setRTVs rtvs (n + 1) = (s.setRTVs rtvs n).setRTV n rtvs[n]?.join := by
      unfold Bindings.setRTVs
      rw [List.range_succ, List.foldl_append]
      rfl
    rw [hsucc]
    generalize s.setRTVs rtvs n = t at hsound hsame hrtvs ⊢
    obtain ⟨hset, hset'⟩ := t.setRTV_spec n rtvs[n]?.join
    refine ⟨hsound.setRTV n fun v hv => hviews v (mem_of_getElem?_join hv),
      ⟨hset'.outputUAVs.trans hsame.outputUAVs, hset'.minUAVBinding.trans hsame.minUAVBinding,
        hset'.maxUAVBinding.trans hsame.maxUAVBinding⟩, fun i => ?_⟩
    rw [hset]
    by_cases hi : i = n
    · rw [hi, Function.update_self, if_pos (Nat.lt_succ_self n)]
    · rw [Function.update_of_ne hi, hrtvs i]
      have : i < n ↔ i < n + 1 := by omega
      simp only [this]

/-- One render target after the other, then the depth-stencil view. -/
theorem Sound.setRenderTargets (hs : s.Sound) (hp : s.Placed) {rtvs : List (Option D3D11TargetView)}
    {dsv : Option D3D11TargetView} (hviews : ∀ v, some v ∈ rtvs → v.bindFlags.renderTarget = true)
    (hdsv : ∀ d, dsv = some d → d.bindFlags.depthStencil = true) :
    (s.setRenderTargets rtvs dsv).Sound ∧ (s.setRenderTargets rtvs dsv).Placed ∧
      SameUAVs (s.setRenderTargets rtvs dsv) s ∧
      ∀ i v, (s.setRenderTargets rtvs dsv).rtvs i = some v → some v ∈ rtvs := by
  obtain ⟨hsound, hsame, hrtvs⟩ := hs.setRTVs hviews renderTargetCount
  unfold Bindings.setRenderTargets
  generalize s.setRTVs rtvs renderTargetCount = t at hsound hsame hrtvs ⊢
  have hnum : Sound { t with numRTVs := rtvs.length } :=
    ⟨⟨hsound.hazards.srvs, hsound.hazards.vertexBuffers⟩, { hsound.flagged with },
      ⟨hsound.apart.graphics, hsound.apart.compute, hsound.apart.vertex, hsound.apart.index⟩⟩
  have hout := setDSV_same { t with numRTVs := rtvs.length } dsv
  have hlist : ∀ i v, t.rtvs i = some v → some v ∈ rtvs ∧ i < rtvs.length ∧ i <
      renderTargetCount := by
    intro i v hv
    rw [hrtvs] at hv
    split at hv
    · next hlt => exact ⟨mem_of_getElem?_join hv, lt_of_getElem?_join hv, hlt⟩
    · next hlt => exact absurd (hp.rtvNum i v hv).2 hlt
  refine ⟨hnum.setDSV hdsv, ⟨fun slot uav hu => ?_, fun slot rtv hr => ?_⟩,
    ⟨hout.outputUAVs.trans hsame.outputUAVs, hout.minUAVBinding.trans hsame.minUAVBinding,
      hout.maxUAVBinding.trans hsame.maxUAVBinding⟩, fun i v hv => ?_⟩
  · rw [hout.minUAVBinding, hout.maxUAVBinding]
    rw [hout.outputUAVs] at hu
    have hu : t.outputUAVs.storage slot = some uav := hu
    rw [hsame.outputUAVs] at hu
    show t.minUAVBinding ≤ slot ∧ slot < t.maxUAVBinding
    rw [hsame.minUAVBinding, hsame.maxUAVBinding]
    exact hp.uavRange slot uav hu
  · rw [hout.numRTVs]
    rw [hout.rtvs] at hr
    exact (hlist slot rtv hr).2
  · rw [hout.rtvs] at hv
    exact (hlist i v hv).1

/-- One slot changes, and the render targets that overlap are gone. -/
theorem setOutputUAV_spec (s : Bindings) (setsRTVs : Bool) (slot : Nat) (view : Option D3D11View) :
    (s.setOutputUAV setsRTVs slot view).outputUAVs.storage =
        Function.update s.outputUAVs.storage slot view ∧
      (∀ i v, (s.setOutputUAV setsRTVs slot view).rtvs i = some v → s.rtvs i = some v) ∧
      (s.setOutputUAV setsRTVs slot view).numRTVs = s.numRTVs ∧
      (s.setOutputUAV setsRTVs slot view).minUAVBinding = s.minUAVBinding ∧
      (s.setOutputUAV setsRTVs slot view).maxUAVBinding = s.maxUAVBinding := by
  cases view with
  | none => exact ⟨BindingSet.storage_unbind _ _, fun _ _ h => h, rfl, rfl, rfl⟩
  | some uav =>
    have hstorage := BindingSet.storage_bind view_redundant s.outputUAVs slot uav true
    unfold setOutputUAV
    dsimp only
    cases hb : s.outputUAVs.bind slot uav true with
    | mk outputUAVs replaced =>
      rw [hb] at hstorage
      cases replaced with
      | false =>
        obtain ⟨rfl, -⟩ := BindingSet.bind_kept hb
        exact ⟨hstorage, fun _ _ h => h, rfl, rfl, rfl⟩
      | true =>
        dsimp only
        have hsame := (sameOutputs_resolveIAHazard (({ s with outputUAVs := outputUAVs } :
          Bindings).omResolveSRVHazard uav.bindFlags (checkOverlap · uav)) uav.bindFlags
          (checkOverlapBuffer · uav)).trans (sameOutputs_omResolveSRVHazard ..)
        generalize (({ s with outputUAVs := outputUAVs } : Bindings).omResolveSRVHazard
          uav.bindFlags
          (checkOverlap · uav)).resolveIAHazard uav.bindFlags (checkOverlapBuffer · uav) = t
          at hsame ⊢
        have hrtvs : t.rtvs = s.rtvs := hsame.rtvs
        split
        · refine ⟨?_, fun i v hv => ?_, ?_, ?_, ?_⟩
          · unfold omResolveRTVHazard
            split <;> exact (congrArg BindingSet.storage hsame.outputUAVs).trans hstorage
          · exact hrtvs ▸ (fewer_omResolveRTVHazard t uav).rtvs i v hv
          · unfold omResolveRTVHazard
            split <;> exact hsame.numRTVs
          · unfold omResolveRTVHazard
            split <;> exact hsame.minUAVBinding
          · unfold omResolveRTVHazard
            split <;> exact hsame.maxUAVBinding
        · exact ⟨(congrArg BindingSet.storage hsame.outputUAVs).trans hstorage,
            fun i v hv => hrtvs ▸ hv, hsame.numRTVs, hsame.minUAVBinding, hsame.maxUAVBinding⟩

/-- The loop over the unordered access views. -/
theorem Sound.setOutputUAVSlots (hs : s.Sound) (setsRTVs : Bool) {view : Nat → Option D3D11View}
    (hviews : ∀ slot uav, view slot = some uav → uav.bindFlags.unorderedAccess = true)
    (first n : Nat) :
    (s.setOutputUAVSlots setsRTVs view first n).Sound ∧
      (∀ i, (s.setOutputUAVSlots setsRTVs view first n).outputUAVs.storage i =
        if first ≤ i ∧ i < first + n then view i else s.outputUAVs.storage i) ∧
      (∀ i v, (s.setOutputUAVSlots setsRTVs view first n).rtvs i = some v → s.rtvs i = some v) ∧
      (s.setOutputUAVSlots setsRTVs view first n).numRTVs = s.numRTVs ∧
      (s.setOutputUAVSlots setsRTVs view first n).minUAVBinding = s.minUAVBinding ∧
      (s.setOutputUAVSlots setsRTVs view first n).maxUAVBinding = s.maxUAVBinding := by
  induction n with
  | zero =>
    refine ⟨hs, fun i => ?_, fun _ _ h => h, rfl, rfl, rfl⟩
    rw [if_neg (by omega)]
    rfl
  | succ n ih =>
    have hsucc : s.setOutputUAVSlots setsRTVs view first (n + 1) =
        (s.setOutputUAVSlots setsRTVs view first n).setOutputUAV setsRTVs (first + n)
          (view (first + n)) := by
      unfold Bindings.setOutputUAVSlots
      rw [List.range'_1_concat, List.foldl_append]
      rfl
    rw [hsucc]
    obtain ⟨hsound, hstorage, hrtvs, hnum, hmin, hmax⟩ := ih
    generalize s.setOutputUAVSlots setsRTVs view first n = t
      at hsound hstorage hrtvs hnum hmin hmax ⊢
    obtain ⟨hstorage', hrtvs', hnum', hmin', hmax'⟩ :=
      t.setOutputUAV_spec setsRTVs (first + n) (view (first + n))
    refine ⟨hsound.setOutputUAV setsRTVs (first + n) fun uav h => hviews _ uav h, fun i => ?_,
      fun i v hv => hrtvs i v (hrtvs' i v hv), hnum'.trans hnum, hmin'.trans hmin,
      hmax'.trans hmax⟩
    rw [hstorage']
    by_cases hi : i = first + n
    · rw [hi, Function.update_self, if_pos (by omega)]
    · rw [Function.update_of_ne hi, hstorage i]
      have : (first ≤ i ∧ i < first + n) ↔ first ≤ i ∧ i < first + (n + 1) := by omega
      simp only [this]

/-- Afterwards the unordered access views are those of the call. -/
theorem Sound.setOutputUAVs (hs : s.Sound) (hp : s.Placed) (setsRTVs : Bool) (start : Nat)
    {uavs : List (Option D3D11View)}
    (hviews : ∀ v, some v ∈ uavs → v.bindFlags.unorderedAccess = true) :
    (s.setOutputUAVs setsRTVs start uavs).Sound ∧ (s.setOutputUAVs setsRTVs start uavs).Placed ∧
      (∀ i v, (s.setOutputUAVs setsRTVs start uavs).rtvs i = some v → s.rtvs i = some v) ∧
      ∀ i v, (s.setOutputUAVs setsRTVs start uavs).outputUAVs.storage i = some v →
        some v ∈ uavs := by
  unfold Bindings.setOutputUAVs
  dsimp only
  generalize hmin : (if uavs.length = 0 then uavSlotCount else start) = minUAV
  generalize hmax : (if uavs.length = 0 then 0 else start + uavs.length) = maxUAV
  have hbase : Sound { s with minUAVBinding := minUAV, maxUAVBinding := maxUAV } :=
    ⟨⟨hs.hazards.srvs, hs.hazards.vertexBuffers⟩, { hs.flagged with },
      ⟨hs.apart.graphics, hs.apart.compute, hs.apart.vertex, hs.apart.index⟩⟩
  generalize hview : (fun slot => if start ≤ slot then uavs[slot - start]?.join else none) = view
  have hview' : ∀ i v, view i = some v → start ≤ i ∧ uavs[i - start]?.join = some v := by
    rw [← hview]
    intro i v hv
    dsimp only at hv
    split at hv
    · exact ⟨‹_›, hv⟩
    · cases hv
  obtain ⟨hsound, hstorage, hrtvs, hnum, hmin', hmax'⟩ := hbase.setOutputUAVSlots setsRTVs
    (fun slot uav h => hviews uav (mem_of_getElem?_join (hview' slot uav h).2))
    (min minUAV s.minUAVBinding) (max maxUAV s.maxUAVBinding - min minUAV s.minUAVBinding)
  generalize Bindings.setOutputUAVSlots { s with minUAVBinding := minUAV, maxUAVBinding := maxUAV }
    setsRTVs view (min minUAV s.minUAVBinding)
    (max maxUAV s.maxUAVBinding - min minUAV s.minUAVBinding) = t
    at hsound hstorage hrtvs hnum hmin' hmax' ⊢
  -- a slot outside the loop was not bound before
  have hnew : ∀ i v, t.outputUAVs.storage i = some v →
      start ≤ i ∧ uavs[i - start]?.join = some v := by
    intro i v hv
    rw [hstorage i] at hv
    split at hv
    · exact hview' i v hv
    · next hout =>
      obtain ⟨hlo, hhi⟩ := hp.uavRange i v hv
      omega
  refine ⟨hsound, ⟨fun slot uav hu => ?_, fun slot rtv hr => ?_⟩, hrtvs, fun i v hv => ?_⟩
  · obtain ⟨hle, hv⟩ := hnew slot uav hu
    have hlt := lt_of_getElem?_join hv
    have hpos : ¬ uavs.length = 0 := by omega
    rw [if_neg hpos] at hmin hmax
    rw [hmin', hmax']
    show minUAV ≤ slot ∧ slot < maxUAV
    omega
  · rw [hnum]
    exact hp.rtvNum slot rtv (hrtvs slot rtv hr)
  · exact mem_of_getElem?_join (hnew i v hv).2

/-- The targets and UAVs of an accepted call do not overlap. -/
theorem not_overlaps_of_validate {rtvs : List (Option D3D11TargetView)}
    {uavs : List (Option D3D11View)} (hval : validateMultiOutput rtvs uavs = true)
    {rtv : D3D11TargetView} {uav : D3D11View} (hr : some rtv ∈ rtvs) (hu : some uav ∈ uavs)
    (hflag : uav.bindFlags.unorderedAccess = true) : ¬ Checked rtv.toD3D11View uav := by
  intro hov
  unfold validateMultiOutput at hval
  simp only [Bool.and_eq_true] at hval
  have := List.all_eq_true.mp hval.1.2 _ hr
  have hany : overlapsAny rtv.toD3D11View uavs = true :=
    List.any_eq_true.mpr ⟨some uav, hu, hov⟩
  have hrflag : rtv.bindFlags.unorderedAccess = true := bindFlags_of_checkOverlap hov ▸ hflag
  simp [hany, hrflag] at this

/-- A call that sets the output merger. -/
theorem Inv.omSet (hs : s.Inv) {rtvs : Option (List (Option D3D11TargetView))}
    {dsv : Option D3D11TargetView} {start : Nat} {uavs : Option (List (Option D3D11View))}
    (hmeets : s.Meets (.omSet rtvs dsv start uavs)) :
    (s.omSetRenderTargetsAndUnorderedAccessViews rtvs dsv start uavs).Inv := by
  obtain ⟨hdsv, hrtvs, huavs⟩ := hmeets
  unfold omSetRenderTargetsAndUnorderedAccessViews
  split
  · exact hs
  · next hval =>
    have hval := Bool.eq_true_of_not_eq_false hval
    cases rtvs with
    | none =>
      cases uavs with
      | none => exact hs
      | some uavs =>
        obtain ⟨-, huavs⟩ := huavs uavs rfl
        obtain ⟨hsound, hplaced, hkept, hnew⟩ :=
          hs.sound.setOutputUAVs hs.placed false start fun v hv => (huavs v hv).1
        refine ⟨hsound, hplaced, fun i rtv hr slot uav hu ho => ?_⟩
        have hno := (huavs uav (hnew slot uav hu)).2 rfl i rtv (hkept i rtv hr)
        exact Bool.noConfusion (hno.symm.trans ho)
    | some rtvs =>
      obtain ⟨-, hrtvs⟩ := hrtvs rtvs rfl
      dsimp only
      split
      · exact hs
      · next renderTarget _ =>
        have hbase : Sound { s with renderTarget := renderTarget } :=
          ⟨⟨hs.sound.hazards.srvs, hs.sound.hazards.vertexBuffers⟩, { hs.sound.flagged with },
            ⟨hs.sound.apart.graphics, hs.sound.apart.compute, hs.sound.apart.vertex,
              hs.sound.apart.index⟩⟩
        have hplacedBase : Placed { s with renderTarget := renderTarget } :=
          hs.placed.same ⟨rfl, rfl, rfl, rfl, rfl⟩
        obtain ⟨hsound, hplaced, hsame, hlist⟩ := hbase.setRenderTargets hplacedBase
          (fun v hv => (hrtvs v hv).1) hdsv
        cases uavs with
        | none =>
          refine ⟨hsound, hplaced, fun i rtv hr slot uav hu ho => ?_⟩
          have hno := (hrtvs rtv (hlist i rtv hr)).2 rfl slot uav (hsame.outputUAVs ▸ hu)
          exact Bool.noConfusion (hno.symm.trans ho)
        | some uavs =>
          obtain ⟨-, huavs⟩ := huavs uavs rfl
          obtain ⟨hsound', hplaced', hkept, hnew⟩ :=
            hsound.setOutputUAVs hplaced true start fun v hv => (huavs v hv).1
          refine ⟨hsound', hplaced', fun i rtv hr slot uav hu => ?_⟩
          have hmem := hnew slot uav hu
          exact not_overlaps_of_validate hval (hlist i rtv (hkept i rtv hr)) hmem (huavs uav hmem).1

/-- **One call.** -/
theorem Inv.call (hs : s.Inv) {c : Call} (hmeets : s.Meets c) : (s.call c).Inv := by
  cases c with
  | setShaderResource stage start views =>
    obtain ⟨hsound, hsame⟩ := hs.sound.setShaderResource stage hs.placed hmeets.2
    exact hs.same hsound hsame
  | setVertexBuffers start buffers =>
    obtain ⟨hsound, hsame⟩ := hs.sound.setVertexBuffers hs.placed hmeets.2
    exact hs.same hsound hsame
  | setIndexBuffer buffer format offset =>
    exact hs.same (hs.sound.setIndexBuffer hs.placed buffer format offset) ⟨rfl, rfl, rfl, rfl, rfl⟩
  | soSetTargets targets => exact hs.soSetTargets hmeets
  | csSetUnorderedAccessViews start views => exact hs.csSetUnorderedAccessViews hmeets
  | omSet rtvs dsv start uavs => exact hs.omSet hmeets

/-- The bits of the writers are right after every call, whatever its arguments. -/
theorem WriterHazards.call (hs : s.WriterHazards) (c : Call) : (s.call c).WriterHazards := by
  cases c with
  | setShaderResource stage start views =>
    show (setShaderResource stage start views s).WriterHazards
    induction views generalizing start s with
    | nil => exact hs
    | cons view views ih =>
      obtain ⟨set, heq, -⟩ := s.bindShaderResource_eq stage start view
      exact ih (heq ▸ ⟨hs.computeUAVs, hs.outputUAVs, hs.streamOutput⟩) (start + 1)
  | setVertexBuffers start buffers =>
    show (setVertexBuffers start buffers s).WriterHazards
    induction buffers generalizing start s with
    | nil => exact hs
    | cons head buffers ih =>
      refine ih ?_ (start + 1)
      unfold bindVertexBuffer
      dsimp only
      repeat' split
      all_goals exact ⟨hs.computeUAVs, hs.outputUAVs, hs.streamOutput⟩
  | setIndexBuffer buffer format offset => exact ⟨hs.computeUAVs, hs.outputUAVs, hs.streamOutput⟩
  | soSetTargets targets =>
    unfold Bindings.call soSetTargets
    dsimp only
    split
    · exact hs
    · exact foldl_induction hs fun t slot _ ht => ht.setTarget slot _ _
  | csSetUnorderedAccessViews start views =>
    unfold Bindings.call csSetUnorderedAccessViews
    dsimp only
    split
    · exact hs
    · split
      · exact hs
      · exact foldl_induction (hs.csUnbindOverlapping start views) fun t slot _ ht =>
          ht.setComputeUAV slot _
  | omSet rtvs dsv start uavs =>
    have huavs : ∀ (t : Bindings) (setsRTVs : Bool) (uavs : List (Option D3D11View)),
        t.WriterHazards → (t.setOutputUAVs setsRTVs start uavs).WriterHazards :=
      fun t setsRTVs uavs ht => by
        have hbase : ∀ min max : Nat,
            WriterHazards { t with minUAVBinding := min, maxUAVBinding := max } :=
          fun _ _ => ⟨ht.computeUAVs, ht.outputUAVs, ht.streamOutput⟩
        exact foldl_induction (hbase _ _) fun u slot _ hu => hu.setOutputUAV setsRTVs slot _
    have hrtvs : ∀ (t : Bindings) (rtvs : List (Option D3D11TargetView)),
        t.WriterHazards → (t.setRenderTargets rtvs dsv).WriterHazards := fun t rtvs ht => by
      have hloop : (t.setRTVs rtvs renderTargetCount).WriterHazards :=
        foldl_induction ht fun u slot _ hu => hu.congr (sameWriters_setRTV u slot _)
      have hnum : WriterHazards { t.setRTVs rtvs renderTargetCount with numRTVs := rtvs.length } :=
        ⟨hloop.computeUAVs, hloop.outputUAVs, hloop.streamOutput⟩
      exact hnum.congr (sameWriters_setDSV _ dsv)
    unfold Bindings.call omSetRenderTargetsAndUnorderedAccessViews
    dsimp only
    split
    · exact hs
    · split
      · split
        · exact hs
        · exact huavs _ _ _ hs
      · split
        · exact hs
        · next renderTarget _ =>
          have hbase : WriterHazards { s with renderTarget := renderTarget } :=
            ⟨hs.computeUAVs, hs.outputUAVs, hs.streamOutput⟩
          split
          · exact hrtvs _ _ hbase
          · exact huavs _ _ _ (hrtvs _ _ hbase)

/-! ## The views that are bound -/

/-- The views that are bound to be read are among `R`, and those bound to be written among `W`. -/
structure Within (s : Bindings) (R W : D3D11View → Prop) : Prop where
  srvs : ∀ stage slot v, (s.srvs stage).storage slot = some v → R v
  computeUAVs : ∀ slot v, s.computeUAVs.storage slot = some v → W v
  outputUAVs : ∀ slot v, s.outputUAVs.storage slot = some v → W v
  rtvs : ∀ slot v, s.rtvs slot = some v → W v.toD3D11View
  dsv : ∀ v, s.dsv = some v → W v.toD3D11View

section Within

variable {R W : D3D11View → Prop}

theorem Within.fewer (hs : s.Within R W) (h : Fewer t s) : t.Within R W where
  srvs stage slot v hv := hs.srvs stage slot v (h.srvs stage slot v hv)
  computeUAVs slot v hv := hs.computeUAVs slot v (h.computeUAVs slot v hv)
  outputUAVs slot v hv := hs.outputUAVs slot v (h.outputUAVs slot v hv)
  rtvs slot v hv := hs.rtvs slot v (h.rtvs slot v hv)
  dsv v hv := hs.dsv v (h.dsv v hv)

theorem Within.setSRVs (hs : s.Within R W) {stage : PipelineStage} {set : BindingSet D3D11View}
    (hset : ∀ slot v, set.storage slot = some v → R v) : (s.setSRVs stage set).Within R W := by
  refine { hs with srvs := fun stage' slot v hv => ?_ }
  by_cases hst : stage' = stage
  · rw [hst, srvs_setSRVs_self] at hv
    exact hset slot v hv
  · rw [srvs_setSRVs_of_ne s set hst] at hv
    exact hs.srvs stage' slot v hv

theorem Within.bindShaderResource (hs : s.Within R W) (stage : PipelineStage) (slot : Nat)
    {view : Option D3D11View} (hview : ∀ v, view = some v → R v) :
    (s.bindShaderResource stage slot view).Within R W := by
  have hunbind : (s.setSRVs stage ((s.srvs stage).unbind slot).1).Within R W := by
    refine hs.setSRVs fun i v hv => hs.srvs stage i v ?_
    exact storage_of_update_none (BindingSet.storage_unbind _ _ ▸ hv)
  unfold Bindings.bindShaderResource
  split
  · next v =>
    split
    · refine hs.setSRVs fun i w hw => ?_
      rw [BindingSet.storage_bind view_redundant] at hw
      rcases storage_of_update hw with ⟨-, rfl⟩ | hold
      · exact hview w rfl
      · exact hs.srvs stage i w hold
    · exact hunbind
  · exact hunbind

theorem Within.setShaderResource (hs : s.Within R W) (stage : PipelineStage) (start : Nat)
    {views : List (Option D3D11View)} (hviews : ∀ v, some v ∈ views → R v) :
    (setShaderResource stage start views s).Within R W := by
  induction views generalizing start s with
  | nil => exact hs
  | cons view views ih =>
    have hhead : (s.bindShaderResource stage start view).Within R W :=
      hs.bindShaderResource stage start fun v hv => hviews v (hv ▸ List.mem_cons_self)
    exact ih hhead (start + 1) fun v hv => hviews v (List.mem_cons_of_mem view hv)

theorem Within.setVertexBuffers (hs : s.Within R W) (start : Nat)
    (buffers : List (Option D3D11Resource × Option Nat × Option Nat)) :
    (setVertexBuffers start buffers s).Within R W := by
  induction buffers generalizing start s with
  | nil => exact hs
  | cons head buffers ih =>
    refine ih ?_ (start + 1)
    unfold bindVertexBuffer
    dsimp only
    repeat' split
    all_goals exact { hs with }

theorem Within.setTarget (hs : s.Within R W) (slot : Nat) (buffer : Option D3D11Resource)
    (offset : Nat) : (s.setTarget slot buffer offset).Within R W := by
  have hset : ∀ streamOutput, Within { s with streamOutput := streamOutput } R W :=
    fun _ => { hs with }
  unfold Bindings.setTarget
  split
  · split
    · split
      · exact hset _
      · exact ((hset _).fewer (fewer_omResolveSRVHazard _ _ _)).fewer (fewer_resolveIAHazard _ _ _)
    · exact hset _
  · exact hset _

theorem Within.setComputeUAV (hs : s.Within R W) (slot : Nat) {view : Option D3D11View}
    (hview : ∀ v, view = some v → W v) : (s.setComputeUAV slot view).Within R W := by
  unfold Bindings.setComputeUAV
  split
  · next uav =>
    split
    · exact hs
    · next computeUAVs hb =>
      have hstorage := BindingSet.bind_replaced hb
      have hset : Within { s with computeUAVs := computeUAVs } R W := by
        refine { hs with computeUAVs := fun i v hv => ?_ }
        rcases storage_of_update (hstorage ▸ hv) with ⟨-, rfl⟩ | hold
        · exact hview v rfl
        · exact hs.computeUAVs i v hold
      unfold resolveSRVHazard
      split
      · exact hset.setSRVs fun i v hv =>
          hset.srvs .compute i v (BindingSet.of_storage_resolveHazards hv)
      · exact hset
  · exact hs.fewer (fewer_unbindComputeUAV s slot)

theorem Within.setRTV (hs : s.Within R W) (slot : Nat) {view : Option D3D11TargetView}
    (hview : ∀ v, view = some v → W v.toD3D11View) : (s.setRTV slot view).Within R W := by
  have hupdate : Within { s with rtvs := Function.update s.rtvs slot view } R W := by
    refine { hs with rtvs := fun i v hv => ?_ }
    cases view with
    | none => exact hs.rtvs i v (storage_of_update_none hv)
    | some rtv =>
      rcases storage_of_update hv with ⟨-, rfl⟩ | hold
      · exact hview v rfl
      · exact hs.rtvs i v hold
  unfold Bindings.setRTV
  split
  · split
    · exact hs
    · exact hupdate.fewer (fewer_omResolveSRVHazard _ _ _)
  · exact hupdate

theorem Within.setDSV (hs : s.Within R W) {view : Option D3D11TargetView}
    (hview : ∀ v, view = some v → W v.toD3D11View) : (s.setDSV view).Within R W := by
  have hupdate : Within { s with dsv := view } R W := { hs with dsv := hview }
  unfold Bindings.setDSV
  split
  · split
    · exact hs
    · exact hupdate.fewer (fewer_omResolveSRVHazard _ _ _)
  · exact hupdate

theorem Within.setOutputUAV (hs : s.Within R W) (setsRTVs : Bool) (slot : Nat)
    {view : Option D3D11View} (hview : ∀ v, view = some v → W v) :
    (s.setOutputUAV setsRTVs slot view).Within R W := by
  unfold Bindings.setOutputUAV
  split
  · next uav =>
    split
    · exact hs
    · next outputUAVs hb =>
      have hstorage := BindingSet.bind_replaced hb
      have hset : Within { s with outputUAVs := outputUAVs } R W := by
        refine { hs with outputUAVs := fun i v hv => ?_ }
        rcases storage_of_update (hstorage ▸ hv) with ⟨-, rfl⟩ | hold
        · exact hview v rfl
        · exact hs.outputUAVs i v hold
      have hresolved :=
        (hset.fewer (fewer_omResolveSRVHazard _ uav.bindFlags (checkOverlap · uav))).fewer
        (fewer_resolveIAHazard _ uav.bindFlags (checkOverlapBuffer · uav))
      dsimp only
      split
      · exact hresolved.fewer (fewer_omResolveRTVHazard _ uav)
      · exact hresolved
  · exact hs.fewer (fewer_unbindOutputUAV s slot)

theorem Within.setOutputUAVs (hs : s.Within R W) (setsRTVs : Bool) (start : Nat)
    {uavs : List (Option D3D11View)} (hviews : ∀ v, some v ∈ uavs → W v) :
    (s.setOutputUAVs setsRTVs start uavs).Within R W := by
  have hbase : ∀ min max : Nat, Within { s with minUAVBinding := min, maxUAVBinding := max } R W :=
    fun _ _ => { hs with }
  refine foldl_induction (motive := (·.Within R W)) (hbase _ _) fun t slot _ ht =>
    ht.setOutputUAV setsRTVs slot fun v hv => ?_
  dsimp only at hv
  split at hv
  · exact hviews v (mem_of_getElem?_join hv)
  · cases hv

theorem Within.setRenderTargets (hs : s.Within R W) {rtvs : List (Option D3D11TargetView)}
    {dsv : Option D3D11TargetView} (hrtvs : ∀ v, some v ∈ rtvs → W v.toD3D11View)
    (hdsv : ∀ v, dsv = some v → W v.toD3D11View) : (s.setRenderTargets rtvs dsv).Within R W := by
  have hloop : (s.setRTVs rtvs renderTargetCount).Within R W :=
    foldl_induction (motive := (·.Within R W)) hs fun t slot _ ht =>
      ht.setRTV slot fun v hv => hrtvs v (mem_of_getElem?_join hv)
  have hnum : Within { s.setRTVs rtvs renderTargetCount with numRTVs := rtvs.length } R W :=
    { hloop with }
  exact hnum.setDSV hdsv

/-- After a call only such views are bound as were before or as it gives. -/
theorem Within.call (hs : s.Within R W) (c : Call) (hreaders : ∀ v, some v ∈ c.readers → R v)
    (hwriters : ∀ v, some v ∈ c.writers → W v) : (s.call c).Within R W := by
  cases c with
  | setShaderResource stage start views => exact hs.setShaderResource stage start hreaders
  | setVertexBuffers start buffers => exact hs.setVertexBuffers start buffers
  | setIndexBuffer buffer format offset => exact { hs with }
  | soSetTargets targets =>
    unfold Bindings.call soSetTargets
    dsimp only
    split
    · exact hs
    · exact foldl_induction (motive := (·.Within R W)) hs fun t slot _ ht => ht.setTarget slot _ _
  | csSetUnorderedAccessViews start views =>
    unfold Bindings.call csSetUnorderedAccessViews
    dsimp only
    split
    · exact hs
    · split
      · exact hs
      · refine foldl_induction (motive := (·.Within R W))
          (hs.fewer (fewer_csUnbindOverlapping s start views)) fun t slot _ ht =>
            ht.setComputeUAV slot fun v hv => ?_
        exact hwriters v (mem_of_getElem?_join hv)
  | omSet rtvs dsv start uavs =>
    unfold Bindings.call omSetRenderTargetsAndUnorderedAccessViews
    dsimp only
    split
    · exact hs
    · split
      · split
        · exact hs
        · exact hs.setOutputUAVs false start fun v hv => hwriters v hv
      · next rtvs _ =>
        split
        · exact hs
        · next renderTarget _ =>
          have hbase : Within { s with renderTarget := renderTarget } R W := { hs with }
          have htargets := @Within.setRenderTargets _ R W hbase rtvs dsv
            (fun v hv => hwriters _ (List.mem_append_left _ (List.mem_cons_of_mem _
              (List.mem_map.mpr ⟨some v, hv, rfl⟩))))
            (fun v hv => hwriters _ (List.mem_append_left _ (hv ▸ List.mem_cons_self)))
          split
          · exact htargets
          · exact htargets.setOutputUAVs true start fun v hv =>
              hwriters v (List.mem_append_right _ hv)

/-- Calls over views of which no overlap with a writer is missed. -/
theorem Within.overlapsSeen (hs : s.Within R W) {c : Call}
    (hreaders : ∀ v, some v ∈ c.readers → R v) (hwriters : ∀ v, some v ∈ c.writers → W v)
    (hseen : ∀ w, W w → ∀ v, R v ∨ W v → w.Seen v) : s.OverlapsSeen c := by
  have hreader : ∀ v, s.Reader c v → R v := by
    rintro v (⟨stage, slot, hv⟩ | hgiven)
    · exact hs.srvs stage slot v hv
    · exact hreaders v hgiven
  have hwriter : ∀ v, s.Writer c v → W v := by
    rintro v ((⟨slot, hv⟩ | ⟨slot, hv⟩ | ⟨slot, rtv, hr, rfl⟩ | ⟨dsv, hd, rfl⟩) | hgiven)
    · exact hs.computeUAVs slot v hv
    · exact hs.outputUAVs slot v hv
    · exact hs.rtvs slot rtv hr
    · exact hs.dsv dsv hd
    · exact hwriters v hgiven
  exact fun w hw v hv => hseen w (hwriter w hw) v (hv.imp (hreader v) (hwriter v))

/-- Nothing is bound at first. -/
theorem within_init : Within {} R W where
  srvs _ _ _ h := nomatch h
  computeUAVs _ _ h := nomatch h
  outputUAVs _ _ h := nomatch h
  rtvs _ _ h := nomatch h
  dsv _ h := nomatch h

end Within

/-- The views that are bound after a call, of which no overlap with a writer is missed. -/
theorem within_call (s : Bindings) (c : Call) : (s.call c).Within (s.Reader c) (s.Writer c) := by
  have hs : s.Within (s.Reader c) (s.Writer c) :=
    { srvs := fun stage slot v hv => .inl ⟨stage, slot, hv⟩
      computeUAVs := fun slot v hv => .inl (.inl ⟨slot, hv⟩)
      outputUAVs := fun slot v hv => .inl (.inr (.inl ⟨slot, hv⟩))
      rtvs := fun slot v hv => .inl (.inr (.inr (.inl ⟨slot, v, hv, rfl⟩)))
      dsv := fun v hv => .inl (.inr (.inr (.inr ⟨v, hv, rfl⟩))) }
  exact hs.call c (fun _ hv => .inr hv) fun _ hv => .inr hv

/-- What `checkOverlap` keeps apart is apart. -/
theorem Inv.overlaps {R W : D3D11View → Prop} (hs : s.Inv) (hwithin : s.Within R W)
    (hseen : ∀ w, W w → ∀ v, R v ∨ W v → w.Seen v) :
    s.Apart Overlaps ∧ s.TargetsApart Overlaps := by
  have hapart := hs.sound.apart
  refine ⟨⟨fun stage slot v hne hlt hv hw => ?_, fun slot v hlt hv hw => ?_, hapart.vertex,
    hapart.index⟩, fun i rtv hr slot uav hu ho => ?_⟩
  · have hread : R v := hwithin.srvs stage slot v hv
    have hchecked : ∀ w, W w → w.Overlaps v → w.Checked v := fun w hw ho =>
      checkOverlap_of_overlaps (hseen w hw v (.inl hread)) ho
    refine hapart.graphics stage slot v hne hlt hv ?_
    rcases hw with ⟨i, rtv, hr, ho⟩ | ⟨dsv, hd, ho⟩ | ⟨i, uav, hi, hu, ho⟩ | htarget
    · exact .inl ⟨i, rtv, hr, hchecked _ (hwithin.rtvs i rtv hr) ho⟩
    · exact .inr (.inl ⟨dsv, hd, hchecked _ (hwithin.dsv dsv hd) ho⟩)
    · exact .inr (.inr (.inl ⟨i, uav, hi, hu, hchecked _ (hwithin.outputUAVs i uav hu) ho⟩))
    · exact .inr (.inr (.inr htarget))
  · obtain ⟨i, uav, hi, hu, ho⟩ := hw
    refine hapart.compute slot v hlt hv ⟨i, uav, hi, hu, checkOverlap_of_overlaps ?_ ho⟩
    exact hseen uav (hwithin.computeUAVs i uav hu) v (.inl (hwithin.srvs .compute slot v hv))
  · refine hs.targets i rtv hr slot uav hu (checkOverlap_of_overlaps ?_ ho)
    exact hseen _ (hwithin.rtvs i rtv hr) uav (.inr (hwithin.outputUAVs slot uav hu))

/-- **Binding hazards.** In every run whose calls meet the conditions, no reader overlaps a writer
after any call, and the hazard bits are right. -/
theorem bindings_exclusive (run : Calls s) : s.Exclusive := by
  have hinv : s.Inv ∧ s.WriterHazards := by
    induction run with
    | init => exact ⟨Inv.init, fun _ => rfl, fun _ => rfl, fun _ => rfl⟩
    | call _ c meets _ ih => exact ⟨ih.1.call meets, ih.2.call c⟩
  have hoverlaps : s.Apart Overlaps ∧ s.TargetsApart Overlaps := by
    cases run with
    | init =>
      exact ⟨⟨(fun _ _ _ _ _ h => nomatch h), (fun _ _ _ h => nomatch h),
        (fun _ _ _ h => nomatch h), (fun _ h => nomatch h)⟩, fun _ _ h => nomatch h⟩
    | @call s _ c _ seen => exact hinv.1.overlaps (within_call s c) seen
  exact ⟨hoverlaps.1, hoverlaps.2, hinv.1.sound.hazards, hinv.2⟩

/-- A texture with one subresource. -/
def singleTexture : SubresourceOverlap.Texture :=
  { SubresourceOverlap.planarTexture with
    arraySize := 1
    planes := 1
    arraySize_pos := Nat.one_pos
    arraySize_lt := by decide
    planes_pos := Nat.one_pos }

/-- The whole of a texture with one subresource. -/
def singleView : SubresourceOverlap.TextureView singleTexture :=
  ⟨⟨.other, 0, 1, 0, 1⟩, 0, by decide, by decide, by decide⟩

/-- A view of a whole texture with these flags. -/
def wholeView (id : Nat) (flags : BindFlags) : D3D11View where
  id := id
  resource := ⟨id, flags, .texture singleTexture⟩
  part := singleView

/-- The whole of a texture as a render target. -/
def wholeTarget (id : Nat) (flags : BindFlags) : D3D11TargetView :=
  ⟨wholeView id flags, ⟨0, 1, 64, 64⟩⟩

/-- A whole texture overlaps itself. -/
theorem overlaps_wholeView (id : Nat) (flags : BindFlags) :
    (wholeView id flags).Overlaps (wholeView id flags) := by
  have hcell : singleView.Denotes 0 0 0 := ⟨by decide, by decide, by decide⟩
  exact ⟨rfl, .subresource 0 0 0, hcell, hcell⟩

theorem seen_wholeView (id : Nat) (flags : BindFlags) :
    (wholeView id flags).Seen (wholeView id flags) :=
  fun _ _ => Iff.rfl

/-- A texture that is read, and then a render target, is not read any more. -/
theorem bindings_exclusive_unbinds : ∃ s : Bindings, ∃ v : D3D11TargetView,
    s.rtvs 0 = some v ∧ (s.srvs .pixel).storage 0 ≠ some v.toD3D11View ∧ s.Exclusive := by
  let flags : BindFlags := { shaderResource := true, renderTarget := true }
  let view := wholeView 1 flags
  have hseen : ∀ w, w = view → ∀ v, v = view ∨ v = view → w.Seen v := by
    rintro w rfl v (rfl | rfl) <;> exact seen_wholeView 1 flags
  have hgiven : ∀ v, some v ∈ [some view] → v = view := fun v hv =>
    Option.some.inj (List.mem_singleton.mp hv)
  have hnone : ∀ v, some v ∈ ([] : List (Option D3D11View)) → v = view := fun _ hv =>
    absurd hv List.not_mem_nil
  have hread : Calls (call {} (.setShaderResource .pixel 0 [some view])) := by
    refine Calls.init.call _ ⟨by decide, fun i v hv _ =>
        ?_⟩ (within_init.overlapsSeen hgiven hnone hseen)
    cases i with
    | zero =>
      cases hv
      exact ⟨rfl, (fun _ h => nomatch h), (fun _ _ _ h => nomatch h), by decide⟩
    | succ i => cases hv
  have hwithin := (within_init (W := (· = view))).call
    (.setShaderResource .pixel 0 [some view]) hgiven hnone
  have hwrite : Calls ((call {} (.setShaderResource .pixel 0 [some view])).call
      (.omSet (some [some (wholeTarget 1 flags)]) none 0 none)) := by
    refine hread.call _ ⟨fun d hd => absurd hd.symm (Option.some_ne_none d), fun views hviews => ?_,
      fun views hviews => absurd hviews.symm (Option.some_ne_none views)⟩
      (hwithin.overlapsSeen hnone (fun v hv => ?_) hseen)
    · cases hviews
      refine ⟨by decide, fun v hv => ?_⟩
      cases List.mem_singleton.mp hv
      exact ⟨rfl, fun _ _ uav huav => absurd huav.symm (Option.some_ne_none uav)⟩
    · rcases List.mem_cons.mp hv with hv | hv
      · exact absurd hv (Option.some_ne_none v)
      · exact hgiven v hv
  have hsafe := bindings_exclusive hwrite
  refine ⟨_, wholeTarget 1 flags, rfl, fun hbound => ?_, hsafe⟩
  exact hsafe.apart.graphics .pixel 0 _ (by decide) (by decide) hbound
    (Or.inl ⟨0, wholeTarget 1 flags, rfl, overlaps_wholeView 1 flags⟩)

/-- A view of all of a buffer of two gibibytes that shaders read and write. -/
def longView : D3D11View where
  id := 1
  resource := ⟨1, { shaderResource := true, unorderedAccess := true },
    .buffer (2 ^ 31) (by decide) (by decide)⟩
  part := SubresourceOverlap.fullSlice

/-- A buffer so long that its slice does not even overlap with itself is written and read. -/
theorem long_slice_unseen : ∃ calls : List Call, ¬ (calls.foldl call {}).Exclusive := by
  have hbyte : SubresourceOverlap.fullSlice.Denotes 0 := ⟨by decide, by decide⟩
  refine ⟨[.csSetUnorderedAccessViews 0 [some longView],
    .setShaderResource .compute 0 [some longView]], fun h => ?_⟩
  exact h.apart.compute 0 longView (by decide) (by decide +kernel)
    ⟨0, longView, by decide, by decide +kernel, rfl, .byte 0, hbyte, hbyte⟩

/-- A view that can conflict is bound over one that cannot. -/
theorem hazard_bit_stale : ∃ calls : List Call, ¬ (calls.foldl call {}).Hazards := by
  refine ⟨[.setShaderResource .pixel 0 [some (wholeView 0 { shaderResource := true })],
    .setShaderResource .pixel 0
      [some (wholeView 1 { shaderResource := true, renderTarget := true })]], fun h => ?_⟩
  exact absurd (h.srvs .pixel 0) (by decide)

/-- An unordered access view in a slot past the render targets, and a view of its texture. -/
theorem high_slot_unseen : ∃ (calls : List Call) (v : D3D11View),
    (calls.foldl call {}).validateSRVHazard .pixel v = true ∧
      (calls.foldl call {}).Written Overlaps v := by
  let v := wholeView 1 { shaderResource := true, unorderedAccess := true }
  refine ⟨[.omSet (some []) none 8 (some [some v])], v, rfl, ?_⟩
  exact Or.inr (Or.inr (Or.inl ⟨8, v, by decide, rfl, overlaps_wholeView 1 _⟩))

/-- An unordered access view is bound with the render targets kept. -/
theorem kept_target_overlaps : ∃ calls : List Call, ¬ (calls.foldl call {}).Exclusive := by
  let flags : BindFlags := { unorderedAccess := true, renderTarget := true }
  refine ⟨[.omSet (some [some (wholeTarget 1 flags)]) none 0 none,
    .omSet none none 1 (some [some (wholeView 1 flags)])], fun h => ?_⟩
  exact h.targets 0 (wholeTarget 1 flags) rfl 1 (wholeView 1 flags) rfl (overlaps_wholeView 1 flags)

end Bindings

end Dxmt
