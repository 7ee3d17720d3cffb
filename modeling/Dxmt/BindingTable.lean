import Dxmt.D3D11Context

/-!
# Fresh tables: `UploadShaderStageResourceBinding` and the dirty bits

A table of a stage is encoded when a slot that the shader declares is dirty, and it stays in the
encoder until the pass ends. At a draw or a dispatch the tables must be those of what is bound.

What is bound is what the slots have, but for the first constant of a constant buffer: that is what
the last `SetConstantBuffers` of the slot says (`ConstantBufferSpec`), and a call without offsets
says the whole buffer. `SetConstantBuffer` keeps the offset when the buffer is the one that is
bound.

An unordered access view is looked at with `any_bound_masked`, so that a table is not encoded again
when the last one is unbound. `UAVsMeet` is a condition on the state before the draw or the dispatch
and on the history of the stage (`UAVsSeen`: whether one was bound when its table was encoded last).

Results: `Inv.step` is the invariant, `tables_fresh` the statement on runs, `tables_fresh_unbound`
what the second of two dispatches finds.
-/

namespace Dxmt

namespace D3D11Context

/-! ## The statement -/

/-- The constant buffers that the calls have bound, with their first constants. -/
abbrev ConstantBufferSpec := PipelineStage → Nat → Option (D3D11Resource × Nat)

/-- What `SetConstantBuffers1` means: without an offset, the buffer from its start on. -/
def specBind : Nat → List (Option (D3D11Resource × Nat) × Option Nat × Option Nat) →
    (Nat → Option (D3D11Resource × Nat)) → Nat → Option (D3D11Resource × Nat)
  | _, [], spec => spec
  | slot, (buffer, first, _) :: buffers, spec =>
    specBind (slot + 1) buffers
      (Function.update spec slot (buffer.map fun b => (b.1, first.getD 0)))

/-- What a call does to the last constant buffers that were set. -/
def specStep (deferred : Bool) (spec : ConstantBufferSpec) : Call → ConstantBufferSpec
  | .setConstantBuffer stage start buffers =>
    Function.update spec stage (specBind start buffers (spec stage))
  | .executeCommandList _ _ _ _ restore => if deferred || restore then spec else fun _ _ => none
  | .finishCommandList restore => if !deferred || restore then spec else fun _ _ => none
  | .clearState => fun _ _ => none
  | _ => spec

/-- What is bound for an argument. -/
def boundArgument (c : D3D11Context) (stage : PipelineStage) (arg : ShaderArgument) :
    ArgumentBinding :=
  match arg.type with
  | .uav => ((c.uavs stage).storage arg.slot).elim .empty .uav
  | _ => c.snapshot stage arg

/-- The tables that the encoder has for the stage are those of what is bound. -/
structure TablesFresh (c : D3D11Context) (spec : ConstantBufferSpec) (stage : PipelineStage)
    (kind : PipelineKind) : Prop where
  constants : ∀ shader, c.shaders stage = some shader → shader.constantBuffers ≠ [] →
    c.encoder.tables (constantsPoint stage kind) = some (.constants
      (shader.constantBuffers.map fun slot =>
        (slot, (spec stage slot).map fun b => (b.1, b.2 <<< 4))))
  arguments : ∀ shader, c.shaders stage = some shader → shader.arguments ≠ [] →
    c.encoder.tables (argumentsPoint stage kind) = some (.arguments
      (shader.arguments.map fun arg => (arg, c.boundArgument stage arg)))

/-- The last command is of this operation. -/
def Emits (c : D3D11Context) (op : EncoderOp) : Prop :=
  ∃ before command, c.commands = before ++ [command] ∧ command.op = op

/-- Whether the table that a stage had last has an unordered access view in it. -/
abbrev UAVsSeen := PipelineStage → Bool

/-- A draw makes every slot of the stage dirty: it starts a pass, since none is open or since an
update of a bound buffer is flushed, or it changes the kind of the pipeline. -/
def drawRenews (c : D3D11Context) (kind : PipelineKind) (stage : PipelineStage) : Bool :=
  !c.inRender || c.drawBindingBuffers.any c.hasPendingBufferUpdateFor ||
    (decide (stage ∈ kind.dirtyStages) &&
      decide (c.previousRenderPipelineState ≠ .renderPipelineReady kind))

/-- A sampler or a shader resource view that the shader declares makes the table be encoded. -/
def encodes (c : D3D11Context) (renews : Bool) (stage : PipelineStage) (shader : ManagedShader) :
    Bool :=
  c.dirtySampler stage shader || c.dirtySRV stage shader ||
    (renews && !(shader.samplerSlotMask.isEmpty && shader.srvSlotMask.isEmpty))

/-- The table is encoded when a declared unordered access view is bound, and has it then. -/
def seenUpload (c : D3D11Context) (renews : Bool) (stage : PipelineStage) (seen : Bool) : Bool :=
  match c.shaders stage with
  | none => seen
  | some shader => c.uavBound stage shader || (!c.encodes renews stage shader && seen)

/-- What the uploads of a draw leave, when it has a pipeline. -/
def seenDraw (c : D3D11Context) (seen : UAVsSeen) : Option PipelineKind → UAVsSeen
  | none => seen
  | some kind => fun stage =>
    if stage ∈ kind.stages then c.seenUpload (c.drawRenews kind stage) stage (seen stage)
    else seen stage

/-- A dispatch of the pass uploads the compute tables. -/
def seenDispatch (c : D3D11Context) (seen : UAVsSeen) (uploads : Bool) : UAVsSeen :=
  if uploads then
    Function.update seen .compute (c.seenUpload (!c.inCompute) .compute (seen .compute))
  else seen

/-- What a call adds to the tables that the pass has been given. -/
def seenStep (c : D3D11Context) (seen : UAVsSeen) : Call → UAVsSeen
  | .draw d => c.seenDraw seen (if d.valid then (c.preDraw d).2 else none)
  | .dispatch d => c.seenDispatch seen (c.preDispatch d).2
  | _ => seen

/-- The condition on a stage: when the shader declares unordered access views and none of them is
bound, then a sampler or a shader resource view makes the table be encoded, or the shader declares
one and the table that the stage had last has no unordered access view. -/
def UAVsMeet (c : D3D11Context) (seen : UAVsSeen) (renews : Bool) (stage : PipelineStage) : Prop :=
  ∀ shader, c.shaders stage = some shader → shader.uavSlotMask ≠ [] →
    c.uavBound stage shader = false → c.encodes renews stage shader = false →
      (shader.samplerSlotMask ≠ [] ∨ shader.srvSlotMask ≠ []) ∧ seen stage = false

/-- The condition on a call. -/
def TablesMeet (c : D3D11Context) (seen : UAVsSeen) : Call → Prop
  | .setConstantBuffer stage start buffers => ∀ i b byteWidth num entry,
    buffers[i]? = some (some (b, byteWidth), none, num) →
      (c.constantBuffers stage).storage (start + i) = some entry → entry.buffer = b →
        entry.firstConstant = 0
  | .draw d => ∀ kind, c.drawn d = some kind →
    (∀ stage ∈ kind.stages, c.UAVsMeet seen (c.drawRenews kind stage) stage) ∧
      ∀ buffer, d.indirect = some (some buffer) → c.hasPendingBufferUpdateFor buffer = true →
        c.drawFlushes buffer = true
  | .dispatch d => c.dispatched d = true →
    c.UAVsMeet seen (!c.inCompute) .compute ∧
      ∀ buffer, d.indirect = some (some buffer) → c.hasPendingBufferUpdateFor buffer = true →
        c.dispatchFlushes buffer = true
  | call => c.BetweenPasses call

/-- A run whose calls meet the condition. -/
inductive TableRun : D3D11Context → ConstantBufferSpec → UAVsSeen → Prop where
  | init (deferred : Bool) : TableRun (init deferred) (fun _ _ => none) fun _ => false
  | step {c : D3D11Context} {spec : ConstantBufferSpec} {seen : UAVsSeen}
    (run : TableRun c spec seen) (call : Call) (meets : c.TablesMeet seen call) :
    TableRun (c.step call) (specStep c.deferred spec call) (c.seenStep seen call)

variable {c c' c'' : D3D11Context} {spec : ConstantBufferSpec} {seen : UAVsSeen}

/-! ## What the encoder makes of an emitted command -/

/-- Neither the tables nor the unordered access views are touched. -/
structure Neutral (op : EncoderOp) : Prop where
  tables : ∀ e : EncodingContext, (e.step op).tables = e.tables
  outputUAVs : ∀ e : EncodingContext, (e.step op).outputUAVs = e.outputUAVs
  computeUAVs : ∀ e : EncodingContext, (e.step op).computeUAVs = e.computeUAVs

theorem neutral_other : Neutral .other := ⟨fun _ => rfl, fun _ => rfl, fun _ => rfl⟩
theorem neutral_blit : Neutral .blit := ⟨fun _ => rfl, fun _ => rfl, fun _ => rfl⟩
theorem neutral_emulated : Neutral .emulated := ⟨fun _ => rfl, fun _ => rfl, fun _ => rfl⟩
theorem neutral_draw (kind : PipelineKind) : Neutral (.draw kind) :=
  ⟨fun _ => rfl, fun _ => rfl, fun _ => rfl⟩
theorem neutral_dispatch : Neutral .dispatch := ⟨fun _ => rfl, fun _ => rfl, fun _ => rfl⟩

theorem neutral_setRenderPipeline (kind : PipelineKind) (compiled : Bool) :
    Neutral (if compiled then .setRenderPipeline kind else .other) := by
  cases compiled <;> exact ⟨fun _ => rfl, fun _ => rfl, fun _ => rfl⟩

theorem neutral_setComputePipeline (compiled : Bool) :
    Neutral (if compiled then .setComputePipeline else .other) := by
  cases compiled <;> exact ⟨fun _ => rfl, fun _ => rfl, fun _ => rfl⟩

/-! ## The invariant -/

/-- Where no slot that the shader declares is dirty, the table that the encoder has is right; its
entries of unordered access views are known where none has been seen. -/
structure StageTables (c : D3D11Context) (seen : UAVsSeen) (stage : PipelineStage)
    (kind : PipelineKind) (shader : ManagedShader) : Prop where
  constants : c.dirtyCBuffer stage shader = false → shader.constantBuffers ≠ [] →
    c.encoder.tables (constantsPoint stage kind) = some (.constants
      (shader.constantBuffers.map fun slot => (slot, c.constantBufferEntry stage slot)))
  arguments : c.dirtySampler stage shader = false → c.dirtySRV stage shader = false →
    (∃ arg ∈ shader.arguments, arg.type ≠ .uav) →
      ∃ table, c.encoder.tables (argumentsPoint stage kind) = some (.arguments table) ∧
        table.map Prod.fst = shader.arguments ∧
          (∀ entry ∈ table, entry.1.type ≠ .uav → entry.2 = c.snapshot stage entry.1) ∧
            (seen stage = false → ∀ entry ∈ table, entry.1.type = .uav → entry.2 = .empty)

/-- Before the tables of the stage are uploaded: when no unordered access view is bound that the
shader declares, and nothing else makes the table be encoded, then the table that the encoder has is
one for these arguments, without an unordered access view. -/
def UAVsKept (c : D3D11Context) (stage : PipelineStage) (kind : PipelineKind) : Prop :=
  ∀ shader, c.shaders stage = some shader → shader.uavSlotMask ≠ [] →
    c.uavBound stage shader = false → c.dirtySampler stage shader = false →
      c.dirtySRV stage shader = false →
        ∃ table, c.encoder.tables (argumentsPoint stage kind) = some (.arguments table) ∧
          table.map Prod.fst = shader.arguments ∧
            ∀ entry ∈ table, entry.1.type = .uav → entry.2 = .empty

/-- The tables of the open pass. In a render pass the kind is that of the last pipeline; the
fragment function has the same tables in all of them. -/
structure PassTables (c : D3D11Context) (seen : UAVsSeen) : Prop where
  ready : ∀ kind, c.cmdbufState = .renderPipelineReady kind →
    c.previousRenderPipelineState = .renderPipelineReady kind
  render : c.inRender = true → ∀ (kind : PipelineKind), ∀ stage ∈ kind.stages,
    stage = .pixel ∨ c.previousRenderPipelineState = .renderPipelineReady kind →
      ∀ shader, c.shaders stage = some shader → c.StageTables seen stage kind shader
  compute : c.inCompute = true → ∀ shader, c.shaders .compute = some shader →
    c.StageTables seen .compute .ordinary shader

/-- What is in the slots is what the encoder and the specification have. -/
structure Mirror (c : D3D11Context) (spec : ConstantBufferSpec) : Prop where
  constants : ∀ stage slot, spec stage slot =
    ((c.constantBuffers stage).storage slot).map fun entry => (entry.buffer, entry.firstConstant)
  outputUAVs : ∀ slot < uavSlotCount,
    c.encoder.outputUAVs slot = c.bindings.outputUAVs.storage slot
  computeUAVs : ∀ slot < uavSlotCount,
    c.encoder.computeUAVs slot = c.bindings.computeUAVs.storage slot

/-- What holds of the context in every run. -/
structure Inv (c : D3D11Context) (spec : ConstantBufferSpec) (seen : UAVsSeen) : Prop where
  mirror : c.Mirror spec
  tables : c.PassTables seen

/-! ## Steps that keep the tables -/

/-- The constant buffers, the samplers and the shader resource views of the stage are all dirty. -/
structure StageDirty (c : D3D11Context) (stage : PipelineStage) : Prop where
  constantBuffers : (c.constantBuffers stage).AllDirty
  samplers : (c.samplers stage).AllDirty
  srvs : (c.bindings.srvs stage).AllDirty

/-- What changes in a slot of the stage is dirty. -/
structure StageTracks (c c' : D3D11Context) (stage : PipelineStage) : Prop where
  shader : c'.shaders stage = c.shaders stage
  constantBuffers : (c.constantBuffers stage).Tracks (c'.constantBuffers stage)
  samplers : (c.samplers stage).Tracks (c'.samplers stage)
  srvs : (c.bindings.srvs stage).Tracks (c'.bindings.srvs stage)

theorem StageTracks.refl (c : D3D11Context) (stage : PipelineStage) : StageTracks c c stage :=
  ⟨rfl, .refl _, .refl _, .refl _⟩

theorem StageTracks.trans {stage : PipelineStage} (h : StageTracks c c' stage)
    (h' : StageTracks c' c'' stage) : StageTracks c c'' stage :=
  ⟨h'.shader.trans h.shader, h.constantBuffers.trans h'.constantBuffers,
    h.samplers.trans h'.samplers, h.srvs.trans h'.srvs⟩

/-- What has to be uploaded stays so through a change that marks what it changes. -/
theorem StageDirty.tracks {stage : PipelineStage} (h : c.StageDirty stage)
    (h' : StageTracks c c' stage) : c'.StageDirty stage :=
  ⟨h.constantBuffers.tracks h'.constantBuffers, h.samplers.tracks h'.samplers,
    h.srvs.tracks h'.srvs⟩

/-- A shader uses the slots of its arguments. -/
theorem mem_slotsOf {shader : ManagedShader} {arg : ShaderArgument} (h : arg ∈ shader.arguments) :
    arg.slot ∈ shader.slotsOf arg.type :=
  List.mem_map_of_mem (List.mem_filter.mpr ⟨h, decide_eq_true rfl⟩)

/-- With everything dirty there is no table to speak of. -/
theorem stageTables_of_dirty {stage : PipelineStage} (h : c.StageDirty stage) (kind : PipelineKind)
    (shader : ManagedShader) : c.StageTables seen stage kind shader where
  constants hclean hne := absurd (h.constantBuffers.masked hclean) hne
  arguments hsampler hsrv := by
    rintro ⟨arg, harg, huav⟩
    have hslot := mem_slotsOf harg
    cases htype : arg.type with
    | sampler =>
      rw [htype] at hslot
      have hempty : shader.slotsOf .sampler = [] := h.samplers.masked hsampler
      rw [hempty] at hslot
      cases hslot
    | srv =>
      rw [htype] at hslot
      have hempty : shader.slotsOf .srv = [] := h.srvs.masked hsrv
      rw [hempty] at hslot
      cases hslot
    | uav => exact absurd htype huav

/-- The tables stay right when a change makes its slot dirty. -/
theorem StageTables.tracks {stage : PipelineStage} {kind : PipelineKind} {shader : ManagedShader}
    (h : c.StageTables seen stage kind shader) (ht : StageTracks c c' stage)
    (hconstants : c'.encoder.tables (constantsPoint stage kind) =
      c.encoder.tables (constantsPoint stage kind))
    (harguments : c'.encoder.tables (argumentsPoint stage kind) =
      c.encoder.tables (argumentsPoint stage kind)) : c'.StageTables seen stage kind shader where
  constants hclean hne := by
    obtain ⟨hold, hsame⟩ := ht.constantBuffers.masked hclean
    rw [hconstants, h.constants hold hne]
    refine congrArg (fun t => some (BindingTable.constants t)) ?_
    refine List.map_congr_left fun slot hslot => ?_
    rw [constantBufferEntry, constantBufferEntry, hsame slot hslot]
  arguments hsampler hsrv hexists := by
    obtain ⟨hsampler', hsamplers⟩ := ht.samplers.masked hsampler
    obtain ⟨hsrv', hsrvs⟩ := ht.srvs.masked hsrv
    obtain ⟨table, htable, hargs, hentries, huavs⟩ := h.arguments hsampler' hsrv' hexists
    refine ⟨table, harguments ▸ htable, hargs, fun entry hentry huav => ?_, huavs⟩
    have hslot : entry.1.slot ∈ shader.slotsOf entry.1.type :=
      mem_slotsOf (hargs ▸ List.mem_map_of_mem hentry)
    rw [hentries entry hentry huav]
    unfold snapshot
    cases htype : entry.1.type with
    | sampler =>
      rw [htype] at hslot
      simp only [hsamplers _ hslot]
    | srv =>
      rw [htype] at hslot
      simp only [hsrvs _ hslot]
    | uav => rfl

/-- A step after which the tables of an open pass are still those of the slots. -/
structure Keeps (c c' : D3D11Context) : Prop where
  stages : ∀ stage, c'.StageDirty stage ∨ c'.shaders stage = none ∨ StageTracks c c' stage
  render : c'.inRender = true → c.inRender = true
  compute : c'.inCompute = true → c.inCompute = true
  tables : c'.inRender = true ∨ c'.inCompute = true → c'.encoder.tables = c.encoder.tables
  previous : c'.inRender = true →
    c'.previousRenderPipelineState = c.previousRenderPipelineState ∨
      ∃ kind, c.cmdbufState = .renderPipelineReady kind ∧
        c'.previousRenderPipelineState = .renderPipelineReady kind
  ready : ∀ kind, c'.cmdbufState = .renderPipelineReady kind →
    c.cmdbufState = .renderPipelineReady kind ∧
      c'.previousRenderPipelineState = c.previousRenderPipelineState

/-- The pass keeps its tables through a change that marks what it changes. -/
theorem PassTables.keeps (h : c.PassTables seen) (hk : Keeps c c') : c'.PassTables seen := by
  have hstage : ∀ stage kind shader, (c'.inRender = true ∨ c'.inCompute = true) →
      (c.shaders stage = some shader → c.StageTables seen stage kind shader) →
        c'.shaders stage = some shader → c'.StageTables seen stage kind shader := by
    intro stage kind shader hopen hold hshader
    rcases hk.stages stage with hdirty | hnone | htracks
    · exact stageTables_of_dirty hdirty kind shader
    · rw [hnone] at hshader
      cases hshader
    · have htables := hk.tables hopen
      exact (hold (htracks.shader ▸ hshader)).tracks htracks (congrFun htables _)
        (congrFun htables _)
  constructor
  · intro kind hkind
    obtain ⟨hold, hprevious⟩ := hk.ready kind hkind
    rw [hprevious]
    exact h.ready kind hold
  · intro hr kind stage hmem hprevious shader hshader
    refine hstage stage kind shader (.inl hr) (h.render (hk.render hr) kind stage hmem ?_ shader)
      hshader
    rcases hprevious with hpixel | hprevious
    · exact .inl hpixel
    · refine .inr ?_
      rcases hk.previous hr with hsame | ⟨kind', hold, hnew⟩
      · rw [← hsame, hprevious]
      · rw [h.ready kind' hold, ← hnew, hprevious]
  · intro hcompute shader hshader
    exact hstage .compute .ordinary shader (.inr hcompute) (h.compute (hk.compute hcompute) shader)
      hshader

theorem Keeps.trans (h : Keeps c c') (h' : Keeps c' c'') : Keeps c c'' where
  stages stage := by
    rcases h'.stages stage with hdirty | hnone | htracks
    · exact .inl hdirty
    · exact .inr (.inl hnone)
    · rcases h.stages stage with hdirty | hnone | htracks'
      · exact .inl (hdirty.tracks htracks)
      · exact .inr (.inl (htracks.shader.trans hnone))
      · exact .inr (.inr (htracks'.trans htracks))
  render hr := h.render (h'.render hr)
  compute hc := h.compute (h'.compute hc)
  tables hopen := (h'.tables hopen).trans (h.tables (hopen.imp h'.render h'.compute))
  previous hr := by
    rcases h'.previous hr with hsame | ⟨kind, hkind, hnew⟩
    · rcases h.previous (h'.render hr) with hsame' | ⟨kind, hkind, hnew⟩
      · exact .inl (hsame.trans hsame')
      · exact .inr ⟨kind, hkind, hsame.trans hnew⟩
    · exact .inr ⟨kind, (h.ready kind hkind).1, hnew⟩
  ready kind hkind := by
    obtain ⟨hkind', hsame⟩ := h'.ready kind hkind
    obtain ⟨hkind'', hsame'⟩ := h.ready kind hkind'
    exact ⟨hkind'', hsame.trans hsame'⟩

/-- What `Mirror` is about stays as it is. -/
structure Holds (c c' : D3D11Context) : Prop where
  constantBuffers : ∀ stage,
    (c'.constantBuffers stage).storage = (c.constantBuffers stage).storage
  outputStorage : c'.bindings.outputUAVs.storage = c.bindings.outputUAVs.storage
  computeStorage : c'.bindings.computeUAVs.storage = c.bindings.computeUAVs.storage
  outputUAVs : c'.encoder.outputUAVs = c.encoder.outputUAVs
  computeUAVs : c'.encoder.computeUAVs = c.encoder.computeUAVs

theorem Holds.trans (h : Holds c c') (h' : Holds c' c'') : Holds c c'' where
  constantBuffers stage := (h'.constantBuffers stage).trans (h.constantBuffers stage)
  outputStorage := h'.outputStorage.trans h.outputStorage
  computeStorage := h'.computeStorage.trans h.computeStorage
  outputUAVs := h'.outputUAVs.trans h.outputUAVs
  computeUAVs := h'.computeUAVs.trans h.computeUAVs

theorem Mirror.congr (h : c.Mirror spec) (hh : Holds c c') : c'.Mirror spec where
  constants stage slot := by rw [hh.constantBuffers]; exact h.constants stage slot
  outputUAVs slot hslot := by rw [hh.outputUAVs, hh.outputStorage]; exact h.outputUAVs slot hslot
  computeUAVs slot hslot := by
    rw [hh.computeUAVs, hh.computeStorage]
    exact h.computeUAVs slot hslot

/-- A step that keeps the tables, and with them the unordered access views and the constants. -/
structure Quiet (c c' : D3D11Context) : Prop where
  keeps : Keeps c c'
  holds : Holds c c'

theorem Quiet.trans (h : Quiet c c') (h' : Quiet c' c'') : Quiet c c'' :=
  ⟨h.keeps.trans h'.keeps, h.holds.trans h'.holds⟩

/-- A quiet step keeps the invariant. -/
theorem Inv.quiet (h : c.Inv spec seen) (hq : Quiet c c') : c'.Inv spec seen :=
  ⟨h.mirror.congr hq.holds, h.tables.keeps hq.keeps⟩

/-- A step that changes nothing but the commands and the flags. -/
structure Same (c c' : D3D11Context) : Prop where
  bindings : c'.bindings = c.bindings
  constantBuffers : c'.constantBuffers = c.constantBuffers
  samplers : c'.samplers = c.samplers
  shaders : c'.shaders = c.shaders
  outputUAVs : c'.encoder.outputUAVs = c.encoder.outputUAVs
  computeUAVs : c'.encoder.computeUAVs = c.encoder.computeUAVs

theorem Same.tracks (h : Same c c') (stage : PipelineStage) : StageTracks c c' stage := by
  refine ⟨congrFun h.shaders stage, ?_, ?_, ?_⟩
  · rw [h.constantBuffers]
    exact .refl _
  · rw [h.samplers]
    exact .refl _
  · rw [h.bindings]
    exact .refl _

theorem Same.holds (h : Same c c') : Holds c c' where
  constantBuffers stage := by rw [h.constantBuffers]
  outputStorage := by rw [h.bindings]
  computeStorage := by rw [h.bindings]
  outputUAVs := h.outputUAVs
  computeUAVs := h.computeUAVs

/-- A step that touches neither the bindings nor the pass is quiet. -/
theorem Same.quiet (h : Same c c') (htables : c'.encoder.tables = c.encoder.tables)
    (hstate : c'.cmdbufState = c.cmdbufState)
    (hprevious : c'.previousRenderPipelineState = c.previousRenderPipelineState) : Quiet c c' where
  keeps :=
    { stages := fun stage => .inr (.inr (h.tracks stage))
      render := by unfold inRender; rw [hstate]; exact id
      compute := by unfold inCompute; rw [hstate]; exact id
      tables := fun _ => htables
      previous := fun _ => .inl hprevious
      ready := fun kind hkind => ⟨hstate ▸ hkind, hprevious⟩ }
  holds := h.holds

/-- No pass with tables is open afterwards. -/
theorem Same.closed (h : Same c c') (hr : c'.inRender = false) (hc : c'.inCompute = false) :
    Quiet c c' where
  keeps :=
    { stages := fun stage => .inr (.inr (h.tracks stage))
      render := by rw [hr]; exact fun h => nomatch h
      compute := by rw [hc]; exact fun h => nomatch h
      tables := by rw [hr, hc]; rintro (h | h) <;> cases h
      previous := by rw [hr]; exact fun h => nomatch h
      ready := fun kind hkind => by rw [inRender, hkind] at hr; cases hr }
  holds := h.holds

theorem quiet_refl (c : D3D11Context) : Quiet c c :=
  Same.quiet ⟨rfl, rfl, rfl, rfl, rfl, rfl⟩ rfl rfl rfl

/-- An operation outside the passes is quiet. -/
theorem quiet_emitST {op : EncoderOp} (h : Neutral op) (c : D3D11Context) (writes : List Nat) :
    Quiet c (c.emitST op writes) := by
  have he := encoder_emitST c op writes
  refine Same.quiet ⟨rfl, rfl, rfl, rfl, ?_, ?_⟩ ?_ rfl rfl
  · rw [he, h.outputUAVs]
  · rw [he, h.computeUAVs]
  · rw [he, h.tables]

/-- An operation inside a pass is quiet. -/
theorem quiet_emitOP {op : EncoderOp} (h : Neutral op) (c : D3D11Context)
    (reads writes : List Nat) :
    Quiet c (c.emitOP op reads writes) := by
  have he := encoder_emitOP c op reads writes
  refine Same.quiet ⟨rfl, rfl, rfl, rfl, ?_, ?_⟩ ?_ rfl rfl
  · rw [he, h.outputUAVs]
  · rw [he, h.computeUAVs]
  · rw [he, h.tables]

theorem quiet_commit (c : D3D11Context) : Quiet c c.commit := by
  unfold commit
  split
  · exact quiet_refl c
  · exact Same.quiet ⟨rfl, rfl, rfl, rfl, rfl, rfl⟩ rfl rfl rfl

theorem quiet_emitBatch {op : EncoderOp} (h : Neutral op) (c : D3D11Context) (buffer : Nat) :
    Quiet c (c.emitBatch op buffer) := by
  unfold emitBatch
  split
  · refine Same.quiet ⟨rfl, rfl, rfl, rfl, ?_, ?_⟩ ?_ rfl rfl
    · exact (congrArg EncodingContext.outputUAVs (encoder_of_commands rfl)).trans (h.outputUAVs _)
    · exact (congrArg EncodingContext.computeUAVs (encoder_of_commands rfl)).trans (h.computeUAVs _)
    · exact (congrArg EncodingContext.tables (encoder_of_commands rfl)).trans (h.tables _)
  · exact quiet_refl c

/-- Quiet steps one after the other. -/
theorem quiet_foldl {α : Type*} {f : D3D11Context → α → D3D11Context} (hf : ∀ c a, Quiet c (f c a))
    (xs : List α) (c : D3D11Context) : Quiet c (xs.foldl f c) := by
  induction xs generalizing c with
  | nil => exact quiet_refl c
  | cons a xs ih => exact (hf c a).trans (ih (f c a))

/-- The end of a pass is quiet: no pass is left that could miss a table. -/
theorem quiet_invalidateCurrentPass (c : D3D11Context) (deferCommit : Bool) :
    Quiet c (c.invalidateCurrentPass deferCommit) := by
  have hend : Quiet c { c.emitST .endPass with cmdbufState := .idle } := by
    have he := encoder_emitST c .endPass []
    exact Same.closed ⟨rfl, rfl, rfl, rfl, (congrArg EncodingContext.outputUAVs he).trans rfl,
      (congrArg EncodingContext.computeUAVs he).trans rfl⟩ rfl rfl
  unfold invalidateCurrentPass
  split <;> dsimp only
  · split
    · exact quiet_commit c
    · exact quiet_refl c
  · split
    · exact hend.trans (quiet_commit _)
    · exact hend

/-- A new pipeline keeps the pass and marks nothing. -/
theorem quiet_invalidateRenderPipeline (c : D3D11Context) : Quiet c c.invalidateRenderPipeline := by
  unfold invalidateRenderPipeline
  split
  · next kind hstate =>
    refine ⟨?_, fun _ => rfl, rfl, rfl, rfl, rfl⟩
    exact
      { stages := fun stage => .inr (.inr ⟨rfl, .refl _, .refl _, .refl _⟩)
        render := fun _ => by rw [inRender, hstate]
        compute := fun h => nomatch h
        tables := fun _ => rfl
        previous := fun _ => .inr ⟨kind, hstate, hstate⟩
        ready := fun _ h => nomatch h }
  · exact quiet_refl c

theorem quiet_invalidateComputePipeline (c : D3D11Context) :
    Quiet c c.invalidateComputePipeline := by
  unfold invalidateComputePipeline
  split
  · next hstate =>
    refine ⟨?_, fun _ => rfl, rfl, rfl, rfl, rfl⟩
    exact
      { stages := fun stage => .inr (.inr ⟨rfl, .refl _, .refl _, .refl _⟩)
        render := fun h => nomatch h
        compute := fun _ => by rw [inCompute, hstate]
        tables := fun _ => rfl
        previous := fun h => nomatch h
        ready := fun _ h => nomatch h }
  · exact quiet_refl c

/-! ## Dirty bits -/

/-- A step that makes slots dirty, or that changes them so. -/
theorem quiet_of_tracks (hstages : ∀ stage, StageTracks c c' stage)
    (hconstants : ∀ stage, (c'.constantBuffers stage).storage = (c.constantBuffers stage).storage)
    (hout : c'.bindings.outputUAVs.storage = c.bindings.outputUAVs.storage)
    (hcompute : c'.bindings.computeUAVs.storage = c.bindings.computeUAVs.storage)
    (hencoder : c'.encoder = c.encoder) (hstate : c'.cmdbufState = c.cmdbufState)
    (hprevious : c'.previousRenderPipelineState = c.previousRenderPipelineState) : Quiet c c' where
  keeps :=
    { stages := fun stage => .inr (.inr (hstages stage))
      render := by unfold inRender; rw [hstate]; exact id
      compute := by unfold inCompute; rw [hstate]; exact id
      tables := fun _ => by rw [hencoder]
      previous := fun _ => .inl hprevious
      ready := fun kind hkind => ⟨hstate ▸ hkind, hprevious⟩ }
  holds := ⟨hconstants, hout, hcompute, by rw [hencoder], by rw [hencoder]⟩

theorem stageTracks_setStageDirty (c : D3D11Context) (stage s : PipelineStage) :
    StageTracks c (c.setStageDirty stage) s :=
  ⟨rfl, BindingSet.tracks_update (BindingSet.tracks_setDirty _) s,
    BindingSet.tracks_update (BindingSet.tracks_setDirty _) s,
    BindingSet.tracks_update (BindingSet.tracks_setDirty _) s⟩

theorem quiet_setStageDirty (c : D3D11Context) (stage : PipelineStage) :
    Quiet c (c.setStageDirty stage) :=
  quiet_of_tracks (stageTracks_setStageDirty c stage) (BindingSet.storage_update rfl)
    rfl rfl rfl rfl rfl

/-- A stage that is set dirty uploads all that its shader uses. -/
theorem stageDirty_setStageDirty (c : D3D11Context) (stage : PipelineStage) :
    (c.setStageDirty stage).StageDirty stage := by
  unfold setStageDirty Bindings.setSRVs
  constructor <;> simp only [Function.update_self] <;> exact BindingSet.allDirty_setDirty _

/-- The bits of the stages are set, one stage after the other. -/
theorem stageDirty_foldl {stages : List PipelineStage} {stage : PipelineStage} (h : stage ∈ stages)
    (c : D3D11Context) : (stages.foldl setStageDirty c).StageDirty stage := by
  have hkeep : ∀ (stages : List PipelineStage) (c : D3D11Context), c.StageDirty stage →
      (stages.foldl setStageDirty c).StageDirty stage := by
    intro stages
    induction stages with
    | nil => exact fun c hc => hc
    | cons s stages ih => exact fun c hc => ih _ (hc.tracks (stageTracks_setStageDirty c s stage))
  induction stages generalizing c with
  | nil => cases h
  | cons s stages ih =>
    rcases List.mem_cons.mp h with rfl | hmem
    · exact hkeep stages _ (stageDirty_setStageDirty c stage)
    · exact ih hmem _

theorem quiet_setVertexBuffersDirty (c : D3D11Context) : Quiet c c.setVertexBuffersDirty :=
  quiet_of_tracks (fun _ => ⟨rfl, .refl _, .refl _, .refl _⟩) (fun _ => rfl) rfl rfl rfl rfl rfl

theorem quiet_setOutputUAVsDirty (c : D3D11Context) : Quiet c c.setOutputUAVsDirty :=
  quiet_of_tracks (fun _ => ⟨rfl, .refl _, .refl _, .refl _⟩) (fun _ => rfl) rfl rfl rfl rfl rfl

theorem quiet_setComputeUAVsDirty (c : D3D11Context) : Quiet c c.setComputeUAVsDirty :=
  quiet_of_tracks (fun _ => ⟨rfl, .refl _, .refl _, .refl _⟩) (fun _ => rfl) rfl rfl rfl rfl rfl

theorem quiet_setRenderDirty (c : D3D11Context) : Quiet c c.setRenderDirty :=
  ((quiet_foldl quiet_setStageDirty graphicsStages c).trans (quiet_setVertexBuffersDirty _)).trans
    (quiet_setOutputUAVsDirty _)

/-- A new render pass uploads the tables of every graphics stage. -/
theorem stageDirty_setRenderDirty (c : D3D11Context) {stage : PipelineStage}
    (h : stage ∈ graphicsStages) : c.setRenderDirty.StageDirty stage := by
  obtain ⟨hconstants, hsamplers, hsrvs⟩ := stageDirty_foldl h c
  exact ⟨hconstants, hsamplers, hsrvs⟩

theorem quiet_setSRVsDirty (c : D3D11Context) (stage : PipelineStage) :
    Quiet c (c.setSRVsDirty stage) :=
  quiet_of_tracks
    (fun s => ⟨rfl, .refl _, .refl _, BindingSet.tracks_update (BindingSet.tracks_setDirty _) s⟩)
    (fun _ => rfl) rfl rfl rfl rfl rfl

theorem quiet_setConstantBuffersDirty (c : D3D11Context) (stage : PipelineStage) :
    Quiet c (c.setConstantBuffersDirty stage) :=
  quiet_of_tracks
    (fun s => ⟨rfl, BindingSet.tracks_update (BindingSet.tracks_setDirty _) s, .refl _, .refl _⟩)
    (BindingSet.storage_update rfl) rfl rfl rfl rfl rfl

/-! ## Switching passes -/

/-- What starts a pass touches no unordered access view. -/
theorem same_start {op : EncoderOp}
    (houtput : ∀ e : EncodingContext, (e.step op).outputUAVs = e.outputUAVs)
    (hcompute : ∀ e : EncodingContext, (e.step op).computeUAVs = e.computeUAVs)
    (state previous : CommandBufferState) :
    Same c { c.emitST op with cmdbufState := state, previousRenderPipelineState := previous } := by
  have he := encoder_emitST c op []
  exact ⟨rfl, rfl, rfl, rfl, (congrArg EncodingContext.outputUAVs he).trans (houtput _),
    (congrArg EncodingContext.computeUAVs he).trans (hcompute _)⟩

/-- A blit pass has no tables. -/
theorem quiet_switchToBlitEncoder (c : D3D11Context) (kind : BlitKind) :
    Quiet c (c.switchToBlitEncoder kind) := by
  unfold switchToBlitEncoder
  split
  · exact quiet_refl c
  · refine (quiet_invalidateCurrentPass c (kind != .blit)).trans ?_
    exact (same_start (fun _ => rfl) (fun _ => rfl) _ _).closed rfl rfl

/-- After the switch the tables of a new pass are those of no stage, and the stages are dirty. -/
theorem Inv.switchToRenderEncoder (h : c.Inv spec seen) (viewport : Bool) :
    (c.switchToRenderEncoder viewport).1.Inv spec seen := by
  have hdirty := h.quiet
    ((quiet_invalidateCurrentPass c false).trans (quiet_setRenderDirty _))
  unfold D3D11Context.switchToRenderEncoder
  split
  · exact h
  · exact h
  · dsimp only
    split
    · exact hdirty
    · refine ⟨hdirty.mirror.congr (same_start (fun _ => rfl) (fun _ => rfl) _ _).holds, ?_⟩
      constructor
      · exact fun kind hkind => nomatch hkind
      · intro _ kind stage _ hstage shader _
        rcases hstage with rfl | hprevious
        · have hpixel : PipelineStage.pixel ∈ graphicsStages := by decide
          obtain ⟨hconstants, hsamplers, hsrvs⟩ :=
            stageDirty_setRenderDirty (c.invalidateCurrentPass false) hpixel
          refine stageTables_of_dirty ?_ kind shader
          exact ⟨hconstants, hsamplers, hsrvs⟩
        · cases hprevious
      · exact fun hc => nomatch hc

/-- A new compute pass uploads all its tables. -/
theorem Inv.switchToComputeEncoder (h : c.Inv spec seen) :
    c.switchToComputeEncoder.Inv spec seen := by
  have hdirty := h.quiet (((quiet_invalidateCurrentPass c false).trans
    (quiet_setStageDirty _ .compute)).trans (quiet_setComputeUAVsDirty _))
  unfold D3D11Context.switchToComputeEncoder
  split
  · exact h
  · exact h
  · refine ⟨hdirty.mirror.congr (same_start (fun _ => rfl) (fun _ => rfl) _ _).holds, ?_⟩
    constructor
    · exact fun kind hkind => nomatch hkind
    · exact fun hr => nomatch hr
    · intro _ shader _
      obtain ⟨hconstants, hsamplers, hsrvs⟩ :=
        stageDirty_setStageDirty (c.invalidateCurrentPass false) .compute
      refine stageTables_of_dirty ?_ _ shader
      exact ⟨hconstants, hsamplers, hsrvs⟩

/-! ## Flushes -/

/-- The waiting updates are written in a pass of their own. -/
theorem quiet_flushPendingBufferUpdatesFor (c : D3D11Context) (buffer : Nat) :
    Quiet c (c.flushPendingBufferUpdatesFor buffer) := by
  unfold flushPendingBufferUpdatesFor
  split
  · exact (quiet_switchToBlitEncoder c _).trans (quiet_emitBatch neutral_blit _ buffer)
  · exact quiet_refl c

theorem Inv.flushPendingBufferUpdatesForMany (h : c.Inv spec seen) (buffers : List Nat) :
    (c.flushPendingBufferUpdatesForMany buffers).Inv spec seen := by
  unfold D3D11Context.flushPendingBufferUpdatesForMany
  split
  · exact h.quiet ((quiet_switchToBlitEncoder c _).trans
      (quiet_foldl (quiet_emitBatch neutral_blit) buffers _))
  · exact h

theorem Inv.flushPendingBufferUpdatesForCompute (h : c.Inv spec seen) (buffer : Nat) :
    (c.flushPendingBufferUpdatesForCompute buffer).Inv spec seen := by
  unfold D3D11Context.flushPendingBufferUpdatesForCompute
  split
  · exact h.switchToComputeEncoder.quiet
      ((quiet_emitBatch neutral_emulated _ buffer).trans (quiet_invalidateComputePipeline _))
  · exact h

theorem quiet_flushAllPendingBufferUpdates (c : D3D11Context) :
    Quiet c c.flushAllPendingBufferUpdates := by
  unfold flushAllPendingBufferUpdates
  split
  · exact quiet_refl c
  · exact (quiet_switchToBlitEncoder c _).trans (quiet_foldl (quiet_emitBatch neutral_blit) _ _)

/-- The invariant through a loop. -/
theorem Inv.foldl {α : Type*} {f : D3D11Context → α → D3D11Context}
    (hf : ∀ {c : D3D11Context} (a : α), c.Inv spec seen → (f c a).Inv spec seen)
    (h : c.Inv spec seen) (xs : List α) : (xs.foldl f c).Inv spec seen := by
  induction xs generalizing c with
  | nil => exact h
  | cons a xs ih => exact ih (hf a h)

theorem Inv.flushPendingBufferUpdatesForDrawBindings (h : c.Inv spec seen) :
    c.flushPendingBufferUpdatesForDrawBindings.Inv spec seen := by
  unfold D3D11Context.flushPendingBufferUpdatesForDrawBindings
  split
  · exact h.flushPendingBufferUpdatesForMany _
  · exact h

theorem Inv.flushPendingBufferUpdatesForComputeBindings (h : c.Inv spec seen) :
    c.flushPendingBufferUpdatesForComputeBindings.Inv spec seen := by
  unfold D3D11Context.flushPendingBufferUpdatesForComputeBindings
  split
  · exact Inv.foldl (fun buffer hc => hc.flushPendingBufferUpdatesForCompute buffer) h _
  · exact h

/-! ## Pipelines -/

/-- A stage of a pipeline has tables that the last pipeline had, or is made dirty. -/
theorem mem_dirtyStages {kind : PipelineKind} {stage : PipelineStage} (h : stage ∈ kind.stages)
    (hpixel : stage ≠ .pixel) : stage ∈ kind.dirtyStages := by
  cases kind <;> cases stage <;> revert h hpixel <;> decide

/-- The last pipeline was one of the kind. -/
theorem Inv.readySame (h : c.Inv spec seen) (hr : c.inRender = true) {kind : PipelineKind}
    (hprevious : c.previousRenderPipelineState = .renderPipelineReady kind) :
    { c with cmdbufState := .renderPipelineReady kind }.Inv spec seen := by
  refine ⟨h.mirror.congr ⟨fun _ => rfl, rfl, rfl, rfl, rfl⟩, ?_⟩
  constructor
  · intro kind' hkind
    cases hkind
    exact hprevious
  · intro _ kind' stage hmem hstage shader hshader
    obtain ⟨hconstants, harguments⟩ := h.tables.render hr kind' stage hmem hstage shader hshader
    exact ⟨hconstants, harguments⟩
  · exact fun hc => nomatch hc

/-- The kind changes: the stages that have other tables are dirty. -/
theorem Inv.readyNew (h : c.Inv spec seen) (hr : c.inRender = true) {kind : PipelineKind}
    (hdirty : ∀ stage ∈ kind.dirtyStages, c.StageDirty stage) :
    { c with
      cmdbufState := .renderPipelineReady kind
      previousRenderPipelineState := .renderPipelineReady kind }.Inv spec seen := by
  refine ⟨h.mirror.congr ⟨fun _ => rfl, rfl, rfl, rfl, rfl⟩, ?_⟩
  constructor
  · intro kind' hkind
    cases hkind
    rfl
  · intro _ kind' stage hmem hstage shader hshader
    by_cases hpixel : stage = .pixel
    · obtain ⟨hconstants, harguments⟩ :=
        h.tables.render hr kind' stage hmem (.inl hpixel) shader hshader
      exact ⟨hconstants, harguments⟩
    · rcases hstage with hstage | hstage
      · exact absurd hstage hpixel
      · cases hstage
        obtain ⟨hconstants, hsamplers, hsrvs⟩ := hdirty stage (mem_dirtyStages hmem hpixel)
        refine stageTables_of_dirty ?_ kind shader
        exact ⟨hconstants, hsamplers, hsrvs⟩
  · exact fun hc => nomatch hc

theorem foldl_setStageDirty_state (stages : List PipelineStage) (c : D3D11Context)
    (state : CommandBufferState) :
    stages.foldl setStageDirty { c with cmdbufState := state } =
      { stages.foldl setStageDirty c with cmdbufState := state } := by
  induction stages generalizing c with
  | nil => rfl
  | cons stage stages ih => exact ih (c.setStageDirty stage)

/-- A pipeline of another kind binds its tables at other points, so all of them are dirty again. -/
theorem Inv.setRenderPipeline (h : c.Inv spec seen) (hr : c.inRender = true) (kind : PipelineKind)
    (compiled : Bool) : (c.setRenderPipeline kind compiled).Inv spec seen := by
  have hset := h.quiet (quiet_emitST (neutral_setRenderPipeline kind compiled) c [])
  unfold D3D11Context.setRenderPipeline
  generalize (if compiled = true then EncoderOp.setRenderPipeline kind else EncoderOp.other) = op
    at hset
  dsimp only
  split
  · next hprevious => exact hset.readySame hr hprevious
  · have hdirty := hset.quiet ((quiet_setVertexBuffersDirty (c.emitST op)).trans
      (quiet_foldl quiet_setStageDirty kind.dirtyStages _))
    have hr' : (kind.dirtyStages.foldl setStageDirty
        (c.emitST op).setVertexBuffersDirty).inRender = true := by
      unfold inRender
      rw [cmdbufState_foldl_setStageDirty]
      exact hr
    have hready := hdirty.readyNew hr' fun stage hmem => stageDirty_foldl hmem _
    have hstate := foldl_setStageDirty_state kind.dirtyStages (c.emitST op).setVertexBuffersDirty
      (.renderPipelineReady kind)
    have heq : { kind.dirtyStages.foldl setStageDirty
        { (c.emitST op).setVertexBuffersDirty with cmdbufState := .renderPipelineReady kind } with
        previousRenderPipelineState := .renderPipelineReady kind } =
      { kind.dirtyStages.foldl setStageDirty (c.emitST op).setVertexBuffersDirty with
        cmdbufState := .renderPipelineReady kind
        previousRenderPipelineState := .renderPipelineReady kind } := by
      rw [hstate]
    exact heq ▸ hready

/-- The draw has its pass and its pipeline. -/
theorem Inv.finalizeCurrentRenderPipeline (h : c.Inv spec seen) (d : DrawInputs) :
    (c.finalizeCurrentRenderPipeline d).1.Inv spec seen := by
  have hs := h.switchToRenderEncoder d.viewport
  have hf := finalized c d
  generalize c.finalizeCurrentRenderPipeline d = result at hf ⊢
  cases hf with
  | ready _ _ => exact h
  | invalid => exact h
  | unsupported => exact h.quiet (quiet_emitST neutral_other c [])
  | noTarget c' hswitch => rwa [hswitch] at hs
  | notCreated c' hswitch => rwa [hswitch] at hs
  | set c' kind _ hswitch =>
    rw [hswitch] at hs
    exact hs.setRenderPipeline (inRender_switchToRenderEncoder hswitch) kind d.compiled

/-- The dispatch has its pass and its pipeline. -/
theorem Inv.finalizeCurrentComputePipeline (h : c.Inv spec seen) (compiled : Bool) :
    (c.finalizeCurrentComputePipeline compiled).1.Inv spec seen := by
  unfold D3D11Context.finalizeCurrentComputePipeline
  split
  · exact h
  · have hs := h.switchToComputeEncoder
    dsimp only
    split
    · exact hs
    · have hset := hs.quiet (quiet_emitST (neutral_setComputePipeline compiled) _ [])
      refine ⟨hset.mirror.congr ⟨fun _ => rfl, rfl, rfl, rfl, rfl⟩, ?_⟩
      constructor
      · exact fun kind hkind => nomatch hkind
      · exact fun hr => nomatch hr
      · intro _ shader hshader
        obtain ⟨hconstants, harguments⟩ :=
          hset.tables.compute (inCompute_switchToComputeEncoder c) shader hshader
        exact ⟨hconstants, harguments⟩

/-! ## Uploading the tables of a stage -/

/-- What an upload of a stage leaves: what is bound, and everything of the other stages. -/
structure Uploads (c c' : D3D11Context) (stage : PipelineStage) (kind : PipelineKind) : Prop
    extends Holds c c' where
  shaders : c'.shaders = c.shaders
  cmdbufState : c'.cmdbufState = c.cmdbufState
  previous : c'.previousRenderPipelineState = c.previousRenderPipelineState
  samplers : ∀ s, (c'.samplers s).storage = (c.samplers s).storage
  srvs : ∀ s, (c'.bindings.srvs s).storage = (c.bindings.srvs s).storage
  others : ∀ s, s ≠ stage → StageTracks c c' s
  untouched : ∀ s, s ≠ stage →
    c'.samplers s = c.samplers s ∧ c'.bindings.srvs s = c.bindings.srvs s
  points : ∀ point, point ≠ constantsPoint stage kind → point ≠ argumentsPoint stage kind →
    c'.encoder.tables point = c.encoder.tables point

theorem Uploads.refl (c : D3D11Context) (stage : PipelineStage) (kind : PipelineKind) :
    Uploads c c stage kind :=
  ⟨⟨fun _ => rfl, rfl, rfl, rfl, rfl⟩, rfl, rfl, rfl, fun _ => rfl, fun _ => rfl,
    fun s _ => .refl c s, fun _ _ => ⟨rfl, rfl⟩, fun _ _ _ => rfl⟩

theorem Uploads.trans {stage : PipelineStage} {kind : PipelineKind} (h : Uploads c c' stage kind)
    (h' : Uploads c' c'' stage kind) : Uploads c c'' stage kind where
  toHolds := h.toHolds.trans h'.toHolds
  shaders := h'.shaders.trans h.shaders
  cmdbufState := h'.cmdbufState.trans h.cmdbufState
  previous := h'.previous.trans h.previous
  samplers s := (h'.samplers s).trans (h.samplers s)
  srvs s := (h'.srvs s).trans (h.srvs s)
  others s hs := (h.others s hs).trans (h'.others s hs)
  untouched s hs :=
    ⟨(h'.untouched s hs).1.trans (h.untouched s hs).1,
      (h'.untouched s hs).2.trans (h.untouched s hs).2⟩
  points point hc ha := (h'.points point hc ha).trans (h.points point hc ha)

theorem Uploads.constantBufferEntry {stage : PipelineStage} {kind : PipelineKind}
    (h : Uploads c c' stage kind) (s : PipelineStage) (slot : Nat) :
    c'.constantBufferEntry s slot = c.constantBufferEntry s slot := by
  rw [D3D11Context.constantBufferEntry, D3D11Context.constantBufferEntry, h.constantBuffers]

/-- An upload does not change what is bound. -/
theorem Uploads.snapshot {stage : PipelineStage} {kind : PipelineKind} (h : Uploads c c' stage kind)
    (s : PipelineStage) (arg : ShaderArgument) : c'.snapshot s arg = c.snapshot s arg := by
  unfold D3D11Context.snapshot
  rw [h.samplers, h.srvs]

theorem Uploads.uavs {stage : PipelineStage} {kind : PipelineKind} (h : Uploads c c' stage kind)
    (s : PipelineStage) : (c'.uavs s).storage = (c.uavs s).storage := by
  unfold D3D11Context.uavs
  split
  · exact h.computeStorage
  · exact h.outputStorage

/-- An upload does not change what an argument stands for. -/
theorem Uploads.boundArgument {stage : PipelineStage} {kind : PipelineKind}
    (h : Uploads c c' stage kind) (s : PipelineStage) (arg : ShaderArgument) :
    c'.boundArgument s arg = c.boundArgument s arg := by
  unfold D3D11Context.boundArgument
  rw [h.uavs, h.snapshot]

/-- The constant table is uploaded at one point, and its slots are clean afterwards. -/
theorem uploads_uploadConstantBuffers (c : D3D11Context) (stage : PipelineStage)
    (kind : PipelineKind) (shader : ManagedShader) :
    Uploads c (c.uploadConstantBuffers stage kind shader) stage kind := by
  have he : (c.uploadConstantBuffers stage kind shader).encoder = c.encoder.step
      (.encodeConstantBuffers stage kind (shader.constantBuffers.map fun slot =>
        (slot, c.constantBufferEntry stage slot))) := encoder_emitST c _ []
  exact
    { shaders := rfl, cmdbufState := rfl, previous := rfl
      constantBuffers := BindingSet.storage_update rfl
      samplers := fun _ => rfl, srvs := fun _ => rfl, outputStorage := rfl, computeStorage := rfl
      outputUAVs := (congrArg EncodingContext.outputUAVs he).trans rfl
      computeUAVs := (congrArg EncodingContext.computeUAVs he).trans rfl
      others := fun s hs => ⟨rfl, by
        have hsame : (c.uploadConstantBuffers stage kind shader).constantBuffers s =
          c.constantBuffers s := Function.update_of_ne hs ..
        rw [hsame]
        exact .refl _, .refl _, .refl _⟩
      untouched := fun _ _ => ⟨rfl, rfl⟩
      points := fun point hc _ => by
        rw [he]
        exact Function.update_of_ne hc .. }

/-- A change of nothing but the dirty bits of unordered access views. -/
theorem uploads_of_bits {stage : PipelineStage} {kind : PipelineKind} {bindings : Bindings}
    (hsrvs : bindings.srvs = c.bindings.srvs)
    (hout : bindings.outputUAVs.storage = c.bindings.outputUAVs.storage)
    (hcompute : bindings.computeUAVs.storage = c.bindings.computeUAVs.storage) :
    Uploads c { c with bindings := bindings } stage kind where
  shaders := rfl
  cmdbufState := rfl
  previous := rfl
  constantBuffers _ := rfl
  samplers _ := rfl
  srvs s := by rw [hsrvs]
  outputStorage := hout
  computeStorage := hcompute
  outputUAVs := rfl
  computeUAVs := rfl
  others s _ := ⟨rfl, .refl _, .refl _, by
    dsimp only
    rw [hsrvs]
    exact .refl _⟩
  untouched s _ := ⟨rfl, congrFun hsrvs s⟩
  points _ _ _ := rfl

/-- The argument table is uploaded at one point, and its slots are clean afterwards. -/
theorem uploads_uploadArguments (c : D3D11Context) (stage : PipelineStage) (kind : PipelineKind)
    (shader : ManagedShader) : Uploads c (c.uploadArguments stage kind shader) stage kind := by
  have h : Uploads c
      { c.emitST (.encodeShaderResources stage kind
          (shader.arguments.map fun arg => (arg, c.snapshot stage arg))) with
        samplers := Function.update c.samplers stage (c.samplers stage).clearDirty
        bindings := c.bindings.setSRVs stage (c.bindings.srvs stage).clearDirty } stage kind := by
    have he := encoder_emitST c (.encodeShaderResources stage kind
      (shader.arguments.map fun arg => (arg, c.snapshot stage arg))) []
    exact
      { shaders := rfl, cmdbufState := rfl, previous := rfl
        constantBuffers := fun _ => rfl
        samplers := BindingSet.storage_update rfl, srvs := BindingSet.storage_update rfl
        outputStorage := rfl, computeStorage := rfl
        outputUAVs := (congrArg EncodingContext.outputUAVs he).trans rfl
        computeUAVs := (congrArg EncodingContext.computeUAVs he).trans rfl
        others := fun s hs => by
          refine ⟨rfl, .refl _, ?_, ?_⟩
          · dsimp only
            rw [Function.update_of_ne hs]
            exact .refl _
          · dsimp only [Bindings.setSRVs]
            rw [Function.update_of_ne hs]
            exact .refl _
        untouched := fun s hs => ⟨Function.update_of_ne hs .., Function.update_of_ne hs ..⟩
        points := fun point _ ha =>
          (congrFun (congrArg EncodingContext.tables he) point).trans
          (Function.update_of_ne ha ..) }
  unfold uploadArguments
  dsimp only
  split
  · exact h.trans (uploads_of_bits rfl rfl rfl)
  · split
    · exact h.trans (uploads_of_bits rfl rfl rfl)
    · exact h

/-- The encoder after the arguments are uploaded. -/
theorem encoder_uploadArguments (c : D3D11Context) (stage : PipelineStage) (kind : PipelineKind)
    (shader : ManagedShader) :
    (c.uploadArguments stage kind shader).encoder = c.encoder.step
      (.encodeShaderResources stage kind
        (shader.arguments.map fun arg => (arg, c.snapshot stage arg))) := by
  unfold uploadArguments
  dsimp only
  split
  · exact encoder_emitST c _ []
  · split <;> exact encoder_emitST c _ []

theorem constantsPoint_ne_argumentsPoint (stage : PipelineStage) (kind : PipelineKind) :
    constantsPoint stage kind ≠ argumentsPoint stage kind := by
  cases stage <;> cases kind <;> decide

/-- The stages of a pipeline have binding points of their own. -/
theorem points_ne {kind : PipelineKind} {stage s : PipelineStage} (h : stage ∈ kind.stages)
    (hs : s ∈ kind.stages) (hne : s ≠ stage) :
    constantsPoint s kind ≠ constantsPoint stage kind ∧
      constantsPoint s kind ≠ argumentsPoint stage kind ∧
        argumentsPoint s kind ≠ constantsPoint stage kind ∧
          argumentsPoint s kind ≠ argumentsPoint stage kind := by
  cases kind <;> cases stage <;> cases s <;> revert h hs hne <;> decide

/-- A table with the entries that a function has for its arguments. -/
theorem table_eq {table : List (ShaderArgument × ArgumentBinding)} {args : List ShaderArgument}
    {f : ShaderArgument → ArgumentBinding} (hargs : table.map Prod.fst = args)
    (hf : ∀ entry ∈ table, entry.2 = f entry.1) : table = args.map fun arg => (arg, f arg) := by
  rw [← hargs, List.map_map]
  refine (List.map_id table).symm.trans (List.map_congr_left fun entry hentry => ?_)
  exact Prod.ext rfl (hf entry hentry)

theorem encoder_uploadConstantBuffers (c : D3D11Context) (stage : PipelineStage)
    (kind : PipelineKind) (shader : ManagedShader) :
    (c.uploadConstantBuffers stage kind shader).encoder = c.encoder.step
      (.encodeConstantBuffers stage kind (shader.constantBuffers.map fun slot =>
        (slot, c.constantBufferEntry stage slot))) :=
  encoder_emitST c _ []

/-- What the encoder writes for an argument is what is bound. -/
theorem argument_eq (hm : c.Mirror spec) (stage : PipelineStage) {shader : ManagedShader}
    {arg : ShaderArgument} (harg : arg ∈ shader.arguments) :
    c.encoder.argument stage arg (c.snapshot stage arg) = c.boundArgument stage arg := by
  have hlt := shader.arguments_lt arg harg
  unfold EncodingContext.argument boundArgument uavs
  cases htype : arg.type with
  | sampler => rfl
  | srv => rfl
  | uav =>
    rw [htype] at hlt
    by_cases hcompute : stage = .compute
    · simp only [if_pos hcompute, hm.computeUAVs _ hlt]
    · simp only [if_neg hcompute, hm.outputUAVs _ hlt]

/-- The table of the constant buffers, after they are uploaded or were not dirty. -/
theorem constants_uploaded {stage : PipelineStage} {kind : PipelineKind} {shader : ManagedShader}
    (ht : c.StageTables seen stage kind shader) (hne : shader.constantBuffers ≠ [])
    (hc : c' = if shader.constantBuffers ≠ [] ∧ c.dirtyCBuffer stage shader then
      c.uploadConstantBuffers stage kind shader else c) :
    c'.encoder.tables (constantsPoint stage kind) = some (.constants
      (shader.constantBuffers.map fun slot => (slot, c.constantBufferEntry stage slot))) := by
  split at hc
  · rw [hc, encoder_uploadConstantBuffers]
    exact Function.update_self ..
  · next hclean =>
    rw [hc]
    refine ht.constants ?_ hne
    by_contra hdirty
    exact hclean ⟨hne, Bool.not_eq_false _ |>.mp hdirty⟩

/-- What is bound for an argument that is no unordered access view is its snapshot. -/
theorem boundArgument_of_ne_uav (c : D3D11Context) (stage : PipelineStage) {arg : ShaderArgument}
    (h : arg.type ≠ .uav) : c.boundArgument stage arg = c.snapshot stage arg := by
  unfold boundArgument
  cases htype : arg.type with
  | sampler => rfl
  | srv => rfl
  | uav => exact absurd htype h

/-- Where no declared unordered access view is bound, the entries are empty. -/
theorem boundArgument_of_unbound {stage : PipelineStage} {shader : ManagedShader}
    (hbound : c.uavBound stage shader = false) {arg : ShaderArgument}
    (harg : arg ∈ shader.arguments) (htype : arg.type = .uav) :
    c.boundArgument stage arg = .empty := by
  have hslot := mem_slotsOf harg
  rw [htype] at hslot
  have hnone : (c.uavs stage).storage arg.slot = none := by
    by_contra hsome
    have hany : c.uavBound stage shader = true :=
      List.any_eq_true.mpr ⟨arg.slot, hslot, Option.isSome_iff_ne_none.mpr hsome⟩
    rw [hany] at hbound
    cases hbound
  unfold boundArgument
  rw [htype, hnone]
  rfl

/-- The table of the arguments, when they are not uploaded. -/
theorem arguments_kept {stage : PipelineStage} {kind : PipelineKind} {shader : ManagedShader}
    (hshader : c.shaders stage = some shader) (ht : c.StageTables seen stage kind shader)
    (huav : c.UAVsKept stage kind) (hne : shader.arguments ≠ [])
    (hsampler : c.dirtySampler stage shader = false) (hsrv : c.dirtySRV stage shader = false)
    (hbound : c.uavBound stage shader = false) :
    c.encoder.tables (argumentsPoint stage kind) = some (.arguments
      (shader.arguments.map fun arg => (arg, c.boundArgument stage arg))) := by
  by_cases hexists : ∃ arg ∈ shader.arguments, arg.type ≠ .uav
  · obtain ⟨table, htable, hargs, hentries, -⟩ := ht.arguments hsampler hsrv hexists
    rw [htable, table_eq hargs fun entry hentry => ?_]
    have hmem : entry.1 ∈ shader.arguments := hargs ▸ List.mem_map_of_mem hentry
    by_cases htype : entry.1.type = .uav
    · have hmask : shader.uavSlotMask ≠ [] := List.ne_nil_of_mem (htype ▸ mem_slotsOf hmem)
      obtain ⟨table', htable', _, hkept⟩ := huav shader hshader hmask hbound hsampler hsrv
      rw [htable] at htable'
      cases htable'
      rw [hkept entry hentry htype, boundArgument_of_unbound hbound hmem htype]
    · rw [hentries entry hentry htype, boundArgument_of_ne_uav c stage htype]
  · -- all the arguments are unordered access views
    push Not at hexists
    obtain ⟨arg, harg⟩ := List.exists_mem_of_ne_nil _ hne
    have hmask : shader.uavSlotMask ≠ [] :=
      List.ne_nil_of_mem (hexists arg harg ▸ mem_slotsOf harg)
    obtain ⟨table, htable, hargs, hkept⟩ := huav shader hshader hmask hbound hsampler hsrv
    rw [htable, table_eq hargs fun entry hentry => ?_]
    have hmem : entry.1 ∈ shader.arguments := hargs ▸ List.mem_map_of_mem hentry
    rw [hkept entry hentry (hexists _ hmem), boundArgument_of_unbound hbound hmem (hexists _ hmem)]

/-- The upload of a stage touches the tables of that stage only. -/
theorem uploads_upload (c : D3D11Context) (stage : PipelineStage) (kind : PipelineKind) :
    Uploads c (c.uploadShaderStageResourceBinding stage kind) stage kind := by
  cases hshader : c.shaders stage with
  | none =>
    have hsame : c.uploadShaderStageResourceBinding stage kind = c := by
      unfold uploadShaderStageResourceBinding
      rw [hshader]
    rw [hsame]
    exact .refl c stage kind
  | some shader =>
    rw [uploadShaderStageResourceBinding_eq c hshader]
    have hconstants : Uploads c
        (if shader.constantBuffers ≠ [] ∧ c.dirtyCBuffer stage shader then
          c.uploadConstantBuffers stage kind shader else c) stage kind := by
      split
      · exact uploads_uploadConstantBuffers c stage kind shader
      · exact .refl c stage kind
    dsimp only
    split
    · exact hconstants.trans (uploads_uploadArguments _ stage kind shader)
    · exact hconstants

/-- After an upload the table of the constant buffers is that of what is bound. -/
theorem upload_constants {stage : PipelineStage} {kind : PipelineKind} {shader : ManagedShader}
    (hshader : c.shaders stage = some shader) (ht : c.StageTables seen stage kind shader)
    (hne : shader.constantBuffers ≠ []) :
    (c.uploadShaderStageResourceBinding stage kind).encoder.tables (constantsPoint stage kind) =
      some (.constants
        (shader.constantBuffers.map fun slot => (slot, c.constantBufferEntry stage slot))) := by
  rw [uploadShaderStageResourceBinding_eq c hshader]
  dsimp only
  split
  · rw [encoder_uploadArguments, ← constants_uploaded ht hne rfl]
    exact Function.update_of_ne (constantsPoint_ne_argumentsPoint stage kind) ..
  · exact constants_uploaded ht hne rfl

/-- The table of the arguments is encoded, or nothing asks for it. -/
theorem upload_arguments (hm : c.Mirror spec) {stage : PipelineStage} (kind : PipelineKind)
    {shader : ManagedShader} (hshader : c.shaders stage = some shader)
    (hne : shader.arguments ≠ []) :
    (c.uploadShaderStageResourceBinding stage kind).encoder.tables (argumentsPoint stage kind) =
        some (.arguments (shader.arguments.map fun arg => (arg, c.boundArgument stage arg))) ∨
      (c.dirtySampler stage shader = false ∧ c.dirtySRV stage shader = false ∧
        c.uavBound stage shader = false) ∧
        (c.uploadShaderStageResourceBinding stage kind).encoder.tables (argumentsPoint stage kind) =
          c.encoder.tables (argumentsPoint stage kind) := by
  rw [uploadShaderStageResourceBinding_eq c hshader]
  generalize hc₁ : (if shader.constantBuffers ≠ [] ∧ c.dirtyCBuffer stage shader = true then
    c.uploadConstantBuffers stage kind shader else c) = c₁
  have hu : Uploads c c₁ stage kind := by
    rw [← hc₁]
    split
    · exact uploads_uploadConstantBuffers c stage kind shader
    · exact .refl c stage kind
  have hargs : c₁.encoder.tables (argumentsPoint stage kind) =
      c.encoder.tables (argumentsPoint stage kind) := by
    rw [← hc₁]
    split
    · rw [encoder_uploadConstantBuffers]
      exact Function.update_of_ne (constantsPoint_ne_argumentsPoint stage kind).symm ..
    · rfl
  dsimp only
  split
  · left
    rw [encoder_uploadArguments]
    refine (Function.update_self ..).trans ?_
    rw [List.map_map]
    refine congrArg (fun t => some (BindingTable.arguments t))
      (List.map_congr_left fun arg harg => Prod.ext rfl ?_)
    exact (argument_eq (hm.congr hu.toHolds) stage harg).trans (hu.boundArgument stage arg)
  · next hflags =>
    right
    refine ⟨?_, hargs⟩
    have hclean : (c.dirtySampler stage shader || c.dirtySRV stage shader ||
        c.uavBound stage shader) = false := by
      by_contra hdirty
      exact hflags ⟨hne, Bool.not_eq_false _ |>.mp hdirty⟩
    simpa only [Bool.or_eq_false_iff, and_assoc] using hclean

/-- Only what is seen of the stage matters for its tables. -/
theorem StageTables.congr {seen' : UAVsSeen} {stage : PipelineStage} {kind : PipelineKind}
    {shader : ManagedShader} (h : c.StageTables seen stage kind shader)
    (hseen : seen' stage = seen stage) : c.StageTables seen' stage kind shader :=
  ⟨h.constants, by rw [hseen]; exact h.arguments⟩

/-- An upload leaves the tables of the stage right. -/
theorem StageTables.upload {stage : PipelineStage} {kind : PipelineKind} {shader : ManagedShader}
    (ht : c.StageTables seen stage kind shader) (hm : c.Mirror spec)
    (hshader : c.shaders stage = some shader) {seen' : UAVsSeen}
    (hseen : seen' stage = c.seenUpload false stage (seen stage)) :
    (c.uploadShaderStageResourceBinding stage kind).StageTables seen' stage kind shader where
  constants _ hne := by
    rw [upload_constants hshader ht hne]
    simp only [(uploads_upload c stage kind).constantBufferEntry]
  arguments _ _ hexists := by
    obtain ⟨arg, harg, _⟩ := id hexists
    have hne : shader.arguments ≠ [] := List.ne_nil_of_mem harg
    unfold seenUpload at hseen
    rw [hshader] at hseen
    rcases upload_arguments hm kind hshader hne with
      hencoded | ⟨⟨hsampler, hsrv, hbound⟩, hkept⟩
    · refine ⟨_, hencoded, ?_, fun entry hentry htype => ?_, fun hnot entry hentry htype => ?_⟩
      · rw [List.map_map]
        exact List.map_id _
      · obtain ⟨a, _, rfl⟩ := List.mem_map.mp hentry
        rw [(uploads_upload c stage kind).snapshot]
        exact boundArgument_of_ne_uav c stage htype
      · obtain ⟨a, ha, rfl⟩ := List.mem_map.mp hentry
        rw [hseen] at hnot
        exact boundArgument_of_unbound (Bool.or_eq_false_iff.mp hnot).1 ha htype
    · obtain ⟨table, htable, hargs, hentries, huavs⟩ := ht.arguments hsampler hsrv hexists
      refine ⟨table, hkept.trans htable, hargs, fun entry hentry htype => ?_, fun hnot => huavs ?_⟩
      · rw [(uploads_upload c stage kind).snapshot]
        exact hentries entry hentry htype
      · -- nothing asks for the table, so that what is seen of the stage stays
        rw [hseen] at hnot
        dsimp only [encodes] at hnot
        rw [hbound, hsampler, hsrv] at hnot
        exact hnot

/-- After an upload the tables of the stage are those of what is bound. -/
theorem tablesFresh_upload (hm : c.Mirror spec) {stage : PipelineStage} {kind : PipelineKind}
    (ht : ∀ shader, c.shaders stage = some shader → c.StageTables seen stage kind shader)
    (huav : c.UAVsKept stage kind) :
    TablesFresh (c.uploadShaderStageResourceBinding stage kind) spec stage kind := by
  have hu := uploads_upload c stage kind
  constructor
  · intro shader hshader hne
    rw [hu.shaders] at hshader
    rw [upload_constants hshader (ht shader hshader) hne]
    refine congrArg (fun t => some (BindingTable.constants t)) (List.map_congr_left fun slot _ =>
        ?_)
    rw [hm.constants, D3D11Context.constantBufferEntry, Option.map_map]
    rfl
  · intro shader hshader hne
    rw [hu.shaders] at hshader
    simp only [hu.boundArgument]
    rcases upload_arguments hm kind hshader hne with
      hencoded | ⟨⟨hsampler, hsrv, hbound⟩, hkept⟩
    · exact hencoded
    · exact hkept.trans
        (arguments_kept hshader (ht shader hshader) huav hne hsampler hsrv hbound)

/-! ## The stages of a draw -/

/-- The tables of the other stages stay as they are. -/
theorem StageTables.uploads {stage s : PipelineStage} {kind : PipelineKind} {shader : ManagedShader}
    (h : c.StageTables seen s kind shader) (hu : Uploads c c' stage kind)
    (hstage : stage ∈ kind.stages) (hs : s ∈ kind.stages)
    (hne : s ≠ stage) : c'.StageTables seen s kind shader := by
  obtain ⟨hcc, hca, hac, haa⟩ := points_ne hstage hs hne
  exact h.tracks (hu.others s hne) (hu.points _ hcc hca) (hu.points _ hac haa)

/-- The fragment function has the same tables in every pipeline. -/
theorem StageTables.pixel {kind : PipelineKind} {shader : ManagedShader}
    (h : c.StageTables seen .pixel kind shader) (kind' : PipelineKind) :
    c.StageTables seen .pixel kind' shader :=
  ⟨h.constants, h.arguments⟩

theorem pixel_mem_stages (kind : PipelineKind) : PipelineStage.pixel ∈ kind.stages := by
  cases kind <;> decide

/-- The tables that are looked at once the pipeline is ready are those of its kind. -/
theorem PassTables.stageTables (h : c.PassTables seen) {kind : PipelineKind}
    (hready : c.cmdbufState = .renderPipelineReady kind) {stage : PipelineStage}
    (hstage : stage ∈ kind.stages) (shader : ManagedShader)
    (hshader : c.shaders stage = some shader) : c.StageTables seen stage kind shader :=
  h.render (by rw [inRender, hready]) kind stage hstage (.inr (h.ready kind hready)) shader hshader

/-- An upload of a stage of the pipeline that is ready. -/
theorem Inv.upload (h : c.Inv spec seen) {kind : PipelineKind}
    (hready : c.cmdbufState = .renderPipelineReady kind) {stage : PipelineStage}
    (hstage : stage ∈ kind.stages) :
    (c.uploadShaderStageResourceBinding stage kind).Inv spec
      (Function.update seen stage (c.seenUpload false stage (seen stage))) := by
  have hu := uploads_upload c stage kind
  have hprevious := h.tables.ready kind hready
  have hnew : ∀ s ∈ kind.stages, ∀ shader, c.shaders s = some shader →
      (c.uploadShaderStageResourceBinding stage kind).StageTables
        (Function.update seen stage (c.seenUpload false stage (seen stage))) s kind shader := by
    intro s hs shader hshader
    have hold := h.tables.stageTables hready hs shader hshader
    by_cases hsame : s = stage
    · cases hsame
      exact hold.upload h.mirror hshader (Function.update_self ..)
    · exact (hold.uploads hu hstage hs hsame).congr (Function.update_of_ne hsame ..)
  refine ⟨h.mirror.congr hu.toHolds, ?_⟩
  constructor
  · intro kind' hkind
    rw [hu.cmdbufState] at hkind
    rw [hu.previous]
    exact h.tables.ready kind' hkind
  · intro _ kind' s hs hpixel shader hshader
    rw [hu.shaders] at hshader
    rcases hpixel with rfl | hkind
    · exact (hnew _ (pixel_mem_stages kind) shader hshader).pixel kind'
    · rw [hu.previous, hprevious] at hkind
      cases hkind
      exact hnew s hs shader hshader
  · intro hcompute
    rw [inCompute, hu.cmdbufState, hready] at hcompute
    cases hcompute

/-- What keeps a table of unordered access views right is not touched by the other stages. -/
theorem UAVsKept.uploads {stage s : PipelineStage} {kind : PipelineKind} (h : c.UAVsKept s kind)
    (hu : Uploads c c' stage kind) (hstage : stage ∈ kind.stages) (hs : s ∈ kind.stages)
    (hne : s ≠ stage) : c'.UAVsKept s kind := by
  intro shader hshader hmask hbound hsampler hsrv
  obtain ⟨_, _, hac, haa⟩ := points_ne hstage hs hne
  have htracks := hu.others s hne
  rw [hu.points _ hac haa]
  refine h shader (hu.shaders ▸ hshader) hmask ?_ (htracks.samplers.masked hsampler).1
    (htracks.srvs.masked hsrv).1
  unfold uavBound BindingSet.anyBoundMasked BindingSet.testBound at hbound ⊢
  rw [← hu.uavs]
  exact hbound

/-- The tables of a stage stay fresh while another stage uploads. -/
theorem TablesFresh.uploads {stage s : PipelineStage} {kind : PipelineKind}
    (h : c.TablesFresh spec s kind) (hu : Uploads c c' stage kind) (hstage : stage ∈ kind.stages)
    (hs : s ∈ kind.stages) (hne : s ≠ stage) : c'.TablesFresh spec s kind := by
  obtain ⟨hcc, hca, hac, haa⟩ := points_ne hstage hs hne
  constructor
  · intro shader hshader hnonempty
    rw [hu.points _ hcc hca]
    exact h.constants shader (hu.shaders ▸ hshader) hnonempty
  · intro shader hshader hnonempty
    rw [hu.points _ hac haa]
    simp only [hu.boundArgument]
    exact h.arguments shader (hu.shaders ▸ hshader) hnonempty

/-- What is seen of a stage does not depend on the uploads of the others. -/
theorem Uploads.seenUpload {stage s : PipelineStage} {kind : PipelineKind}
    (hu : Uploads c c' stage kind) (hne : s ≠ stage) (seen : Bool) :
    c'.seenUpload false s seen = c.seenUpload false s seen := by
  have huavs := hu.uavs s
  unfold D3D11Context.seenUpload encodes dirtySampler dirtySRV uavBound BindingSet.anyBoundMasked
    BindingSet.testBound
  rw [hu.shaders, (hu.untouched s hne).1, (hu.untouched s hne).2, huavs]

/-- What is seen of the stages after the uploads of some. -/
def seenUploads (c : D3D11Context) (seen : UAVsSeen) (stages : List PipelineStage) : UAVsSeen :=
  fun stage =>
    if stage ∈ stages then c.seenUpload false stage (seen stage) else seen stage

theorem nodup_stages (kind : PipelineKind) : kind.stages.Nodup := by
  cases kind <;> decide

/-- The uploads of some stages keep everything but the tables. -/
theorem Inv.uploads_foldl {kind : PipelineKind} (stages : List PipelineStage)
    (hstages : ∀ stage ∈ stages, stage ∈ kind.stages) (hnodup : stages.Nodup) {c : D3D11Context}
    {seen : UAVsSeen} (h : c.Inv spec seen) (hready : c.cmdbufState = .renderPipelineReady kind) :
    (stages.foldl (fun c stage => c.uploadShaderStageResourceBinding stage kind) c).Inv spec
      (c.seenUploads seen stages) := by
  induction stages generalizing c seen with
  | nil => exact h
  | cons stage stages ih =>
    have hu := uploads_upload c stage kind
    obtain ⟨hnot, hnodup⟩ := List.nodup_cons.mp hnodup
    have hrest := ih (fun s hs => hstages s (List.mem_cons_of_mem _ hs)) hnodup
      (h.upload hready (hstages stage List.mem_cons_self)) (hu.cmdbufState.trans hready)
    have hseen : (c.uploadShaderStageResourceBinding stage kind).seenUploads
        (Function.update seen stage (c.seenUpload false stage (seen stage))) stages =
          c.seenUploads seen (stage :: stages) := by
      funext s
      unfold seenUploads
      by_cases hs : s = stage
      · rw [hs, if_neg hnot, if_pos List.mem_cons_self, Function.update_self]
      · rw [Function.update_of_ne hs, hu.seenUpload hs]
        simp only [List.mem_cons, hs, false_or]
    rwa [hseen] at hrest

/-- The tables of a stage that is uploaded before stay fresh. -/
theorem TablesFresh.uploads_foldl {kind : PipelineKind} {s : PipelineStage} (hs : s ∈ kind.stages)
    (stages : List PipelineStage) (hstages : ∀ stage ∈ stages, stage ∈ kind.stages)
    (hne : s ∉ stages) {c : D3D11Context} (h : c.TablesFresh spec s kind) :
    (stages.foldl (fun c stage => c.uploadShaderStageResourceBinding stage kind) c).TablesFresh
      spec s kind := by
  induction stages generalizing c with
  | nil => exact h
  | cons stage stages ih =>
    have hstage := hstages stage List.mem_cons_self
    exact ih (fun t ht => hstages t (List.mem_cons_of_mem _ ht))
      (fun hmem => hne (List.mem_cons_of_mem _ hmem))
      (h.uploads (uploads_upload c stage kind) hstage hs (List.ne_of_not_mem_cons hne))

/-- After the uploads the tables of every stage are fresh. -/
theorem tablesFresh_uploads {kind : PipelineKind} (stages : List PipelineStage)
    (hstages : ∀ stage ∈ stages, stage ∈ kind.stages) (hnodup : stages.Nodup) {c : D3D11Context}
    {seen : UAVsSeen} (h : c.Inv spec seen) (hready : c.cmdbufState = .renderPipelineReady kind)
    (hkept : ∀ stage ∈ stages, c.UAVsKept stage kind) :
    ∀ s ∈ stages,
      (stages.foldl (fun c stage => c.uploadShaderStageResourceBinding stage kind) c).TablesFresh
        spec s kind := by
  induction stages generalizing c seen with
  | nil => exact fun s hs => nomatch hs
  | cons stage stages ih =>
    have hstage := hstages stage List.mem_cons_self
    have hrest : ∀ t ∈ stages, t ∈ kind.stages := fun t ht => hstages t (List.mem_cons_of_mem _ ht)
    have hu := uploads_upload c stage kind
    obtain ⟨hnot, hnodup⟩ := List.nodup_cons.mp hnodup
    intro s hs
    rcases List.mem_cons.mp hs with rfl | hs
    · have hfresh := tablesFresh_upload h.mirror
        (fun shader hshader => h.tables.stageTables hready hstage shader hshader)
        (hkept s List.mem_cons_self)
      exact hfresh.uploads_foldl hstage stages hrest hnot
    · refine ih hrest hnodup (h.upload hready hstage) (hu.cmdbufState.trans hready) ?_ s hs
      intro t ht
      have hne : t ≠ stage := fun heq => hnot (heq ▸ ht)
      exact (hkept t (List.mem_cons_of_mem _ ht)).uploads hu hstage (hrest t ht) hne

/-- An upload for the compute pipeline that is ready. -/
theorem Inv.uploadCompute (h : c.Inv spec seen) (hready : c.cmdbufState = .computePipelineReady) :
    (c.uploadShaderStageResourceBinding .compute .ordinary).Inv spec
      (Function.update seen .compute (c.seenUpload false .compute (seen .compute))) := by
  have hu := uploads_upload c .compute .ordinary
  have hcompute : c.inCompute = true := by rw [inCompute, hready]
  refine ⟨h.mirror.congr hu.toHolds, ?_⟩
  constructor
  · intro kind hkind
    rw [hu.cmdbufState, hready] at hkind
    cases hkind
  · intro hrender
    rw [inRender, hu.cmdbufState, hready] at hrender
    cases hrender
  · intro _ shader hshader
    rw [hu.shaders] at hshader
    exact (h.tables.compute hcompute shader hshader).upload h.mirror hshader
      (Function.update_self ..)

/-! ## What the uploads of a call find -/

/-- From `c` to `c'` nothing is bound or unbound, and the samplers and the shader resource views of
the stage are made dirty or kept. -/
structure Arrives (c c' : D3D11Context) (stage : PipelineStage) (renewed : Prop) : Prop where
  shaders : c'.shaders = c.shaders
  outputUAVs : c'.bindings.outputUAVs.storage = c.bindings.outputUAVs.storage
  computeUAVs : c'.bindings.computeUAVs.storage = c.bindings.computeUAVs.storage
  dirty : renewed → (c'.samplers stage).AllDirty ∧ (c'.bindings.srvs stage).AllDirty
  kept : ¬ renewed →
    c'.samplers stage = c.samplers stage ∧ c'.bindings.srvs stage = c.bindings.srvs stage

/-- Nothing of the bindings is touched. -/
theorem arrives_of_eq {stage : PipelineStage} {renewed : Prop} (hnot : ¬ renewed)
    (hbindings : c'.bindings = c.bindings) (hsamplers : c'.samplers = c.samplers)
    (hshaders : c'.shaders = c.shaders) : Arrives c c' stage renewed :=
  ⟨hshaders, by rw [hbindings], by rw [hbindings], fun h => absurd h hnot,
    fun _ => ⟨congrFun hsamplers stage, by rw [hbindings]⟩⟩

/-- Two steps renew a stage where one of them does. -/
theorem Arrives.trans {stage : PipelineStage} {p q : Prop} (h : Arrives c c' stage p)
    (h' : Arrives c' c'' stage q) : Arrives c c'' stage (p ∨ q) where
  shaders := h'.shaders.trans h.shaders
  outputUAVs := h'.outputUAVs.trans h.outputUAVs
  computeUAVs := h'.computeUAVs.trans h.computeUAVs
  dirty hpq := by
    by_cases hq : q
    · exact h'.dirty hq
    · obtain ⟨hsamplers, hsrvs⟩ := h'.kept hq
      rw [hsamplers, hsrvs]
      exact h.dirty (hpq.resolve_right hq)
  kept hpq := by
    obtain ⟨hp, hq⟩ := not_or.mp hpq
    exact ⟨(h'.kept hq).1.trans (h.kept hp).1, (h'.kept hq).2.trans (h.kept hp).2⟩

theorem Arrives.congr {stage : PipelineStage} {p q : Prop} (h : Arrives c c' stage p)
    (hpq : p ↔ q) :
    Arrives c c' stage q :=
  ⟨h.shaders, h.outputUAVs, h.computeUAVs, fun hq => h.dirty (hpq.mpr hq),
    fun hq => h.kept fun hp => hq (hpq.mp hp)⟩

/-- A step after it that touches none of the bindings. -/
theorem Arrives.untouched {stage : PipelineStage} {p : Prop} (h : Arrives c c' stage p)
    (hbindings : c''.bindings = c'.bindings) (hsamplers : c''.samplers = c'.samplers)
    (hshaders : c''.shaders = c'.shaders) : Arrives c c'' stage p :=
  (h.trans (arrives_of_eq not_false hbindings hsamplers hshaders)).congr
    (or_iff_left id)

/-- Steps that renew nothing, one after the other. -/
theorem Arrives.foldl {α : Type*} {f : D3D11Context → α → D3D11Context} {stage : PipelineStage}
    (hf : ∀ c a, Arrives c (f c a) stage False) (xs : List α) (c : D3D11Context) :
    Arrives c (xs.foldl f c) stage False := by
  induction xs generalizing c with
  | nil => exact arrives_of_eq id rfl rfl rfl
  | cons a xs ih => exact ((hf c a).trans (ih (f c a))).congr (or_self_iff)

/-- A step on the way to the upload binds no view. -/
theorem uavBound_arrives {stage : PipelineStage} {renewed : Prop} (h : Arrives c c' stage renewed)
    (shader : ManagedShader) : c'.uavBound stage shader = c.uavBound stage shader := by
  unfold uavBound uavs BindingSet.anyBoundMasked BindingSet.testBound
  split
  · rw [h.computeUAVs]
  · rw [h.outputUAVs]

/-- Where every slot is dirty, any slot that is used is. -/
theorem anyDirtyMasked_of_allDirty {Element : Type} {set : BindingSet Element} (h : set.AllDirty)
    (mask : List Nat) : set.anyDirtyMasked mask = !mask.isEmpty := by
  cases mask with
  | nil => rfl
  | cons slot mask => simp [BindingSet.anyDirtyMasked, h slot]

/-- What makes the table be encoded, before the call and at the upload. -/
theorem Arrives.encodes {stage : PipelineStage} {renews : Bool}
    (h : Arrives c c' stage (renews = true)) (shader : ManagedShader) :
    c'.encodes false stage shader = c.encodes renews stage shader := by
  unfold D3D11Context.encodes dirtySampler dirtySRV
  cases renews with
  | false =>
    obtain ⟨hsamplers, hsrvs⟩ := h.kept Bool.false_ne_true
    rw [hsamplers, hsrvs]
  | true =>
    obtain ⟨hsamplers, hsrvs⟩ := h.dirty rfl
    have hempty : ∀ {Element : Type} (set : BindingSet Element) (mask : List Nat),
        (set.anyDirtyMasked mask || !mask.isEmpty) = !mask.isEmpty := by
      intro Element set mask
      cases mask with
      | nil => rfl
      | cons slot mask => exact Bool.or_true _
    rw [anyDirtyMasked_of_allDirty hsamplers, anyDirtyMasked_of_allDirty hsrvs, Bool.false_and,
      Bool.or_false, Bool.true_and, Bool.not_and,
        ← hempty (c.samplers stage) shader.samplerSlotMask,
      ← hempty (c.bindings.srvs stage) shader.srvSlotMask]
    ac_rfl

/-- Whether the upload has seen the views can be told from the state before. -/
theorem Arrives.seenUpload {stage : PipelineStage} {renews : Bool}
    (h : Arrives c c' stage (renews = true)) (seen : Bool) :
    c'.seenUpload false stage seen = c.seenUpload renews stage seen := by
  unfold D3D11Context.seenUpload
  rw [h.shaders]
  cases c.shaders stage with
  | none => rfl
  | some shader =>
    dsimp only
    rw [uavBound_arrives h, h.encodes]

/-- The condition on a stage before the call is what the upload needs. -/
theorem UAVsMeet.kept {stage : PipelineStage} {kind : PipelineKind} {renews : Bool}
    (hmeets : c.UAVsMeet seen renews stage) (h : Arrives c c' stage (renews = true))
    (ht : ∀ shader, c'.shaders stage = some shader → c'.StageTables seen stage kind shader) :
    c'.UAVsKept stage kind := by
  intro shader hshader hmask hbound hsampler hsrv
  have hencodes : c.encodes renews stage shader = false := by
    rw [← h.encodes]
    unfold D3D11Context.encodes
    rw [hsampler, hsrv]
    rfl
  obtain ⟨hdeclares, hseen⟩ := hmeets shader (h.shaders ▸ hshader) hmask
    (uavBound_arrives h shader ▸ hbound) hencodes
  have hexists : ∃ arg ∈ shader.arguments, arg.type ≠ .uav := by
    rcases hdeclares with hne | hne
    all_goals
      obtain ⟨slot, hslot⟩ := List.exists_mem_of_ne_nil _ hne
      obtain ⟨arg, harg, -⟩ := List.mem_map.mp hslot
      obtain ⟨harg, htype⟩ := List.mem_filter.mp harg
      refine ⟨arg, harg, ?_⟩
      rw [of_decide_eq_true htype]
      decide
  obtain ⟨table, htable, hargs, -, huavs⟩ := (ht shader hshader).arguments hsampler hsrv hexists
  exact ⟨table, htable, hargs, huavs hseen⟩

/-- The end of a pass marks no stage. -/
theorem arrives_invalidateCurrentPass (c : D3D11Context) (deferCommit : Bool)
    (stage : PipelineStage) : Arrives c (c.invalidateCurrentPass deferCommit) stage False := by
  have hcommit : ∀ c : D3D11Context, Arrives c c.commit stage False := by
    intro c
    unfold commit
    split <;> exact arrives_of_eq id rfl rfl rfl
  have hend : Arrives c { c.emitST .endPass with cmdbufState := .idle } stage False :=
    arrives_of_eq id rfl rfl rfl
  unfold invalidateCurrentPass
  split <;> dsimp only
  · split
    · exact hcommit c
    · exact arrives_of_eq id rfl rfl rfl
  · split
    · exact (hend.trans (hcommit _)).congr or_self_iff
    · exact hend

theorem arrives_switchToBlitEncoder (c : D3D11Context) (kind : BlitKind) (stage : PipelineStage) :
    Arrives c (c.switchToBlitEncoder kind) stage False := by
  unfold switchToBlitEncoder
  split
  · exact arrives_of_eq id rfl rfl rfl
  · exact (arrives_invalidateCurrentPass c _ stage).untouched rfl rfl rfl

theorem arrives_emitBatch (op : EncoderOp) (c : D3D11Context) (buffer : Nat)
    (stage : PipelineStage) : Arrives c (c.emitBatch op buffer) stage False := by
  unfold emitBatch
  split <;> exact arrives_of_eq id rfl rfl rfl

theorem cmdbufState_emitBatch (op : EncoderOp) (c : D3D11Context) (buffer : Nat) :
    (c.emitBatch op buffer).cmdbufState = c.cmdbufState := by
  unfold emitBatch
  split <;> rfl

theorem arrives_flushForDraw (c : D3D11Context) (stage : PipelineStage) :
    Arrives c c.flushPendingBufferUpdatesForDrawBindings stage False := by
  unfold flushPendingBufferUpdatesForDrawBindings flushPendingBufferUpdatesForMany
  split
  · split
    · exact ((arrives_switchToBlitEncoder c _ stage).trans
        (Arrives.foldl (fun c buffer => arrives_emitBatch .blit c buffer stage) _ _)).congr
          or_self_iff
    · exact arrives_of_eq id rfl rfl rfl
  · exact arrives_of_eq id rfl rfl rfl

theorem arrives_foldl_setStageDirty (stages : List PipelineStage) (c : D3D11Context)
    (stage : PipelineStage) :
    Arrives c (stages.foldl setStageDirty c) stage (stage ∈ stages) := by
  induction stages generalizing c with
  | nil => exact arrives_of_eq List.not_mem_nil rfl rfl rfl
  | cons s stages ih =>
    have hone : Arrives c (c.setStageDirty s) stage (stage = s) := by
      refine ⟨rfl, rfl, rfl, fun hs => ?_, fun hs => ?_⟩
      · subst hs
        obtain ⟨-, hsamplers, hsrvs⟩ := stageDirty_setStageDirty c stage
        exact ⟨hsamplers, hsrvs⟩
      · exact ⟨Function.update_of_ne hs .., Function.update_of_ne hs ..⟩
    exact (hone.trans (ih _)).congr List.mem_cons.symm

/-- A new render pass marks every graphics stage. -/
theorem arrives_switchToRenderEncoder (c : D3D11Context) (viewport : Bool) (stage : PipelineStage) :
    Arrives c (c.switchToRenderEncoder viewport).1 stage
      (c.inRender = false ∧ stage ∈ graphicsStages) := by
  unfold switchToRenderEncoder
  split
  · next kind hstate =>
    have hr : c.inRender = true := by rw [inRender, hstate]
    exact arrives_of_eq (fun h => Bool.noConfusion (hr.symm.trans h.1)) rfl rfl rfl
  · next hstate =>
    have hr : c.inRender = true := by rw [inRender, hstate]
    exact arrives_of_eq (fun h => Bool.noConfusion (hr.symm.trans h.1)) rfl rfl rfl
  · next hready hactive =>
    have hr : c.inRender = false := by
      unfold inRender
      split
      · next hstate => exact absurd hstate hactive
      · next kind hstate => exact absurd hstate (hready kind)
      · rfl
    have hdirty : Arrives c (c.invalidateCurrentPass false).setRenderDirty stage
        (c.inRender = false ∧ stage ∈ graphicsStages) := by
      obtain ⟨hshaders, hout, hcompute, hall, hkept⟩ :=
        (arrives_invalidateCurrentPass c false stage).trans
          (arrives_foldl_setStageDirty graphicsStages (c.invalidateCurrentPass false) stage)
      exact ⟨hshaders, hout, hcompute, fun h => hall (.inr h.2),
        fun h => hkept fun h' => h ⟨hr, h'.resolve_left id⟩⟩
    dsimp only
    split
    · exact hdirty
    · exact hdirty.untouched rfl rfl rfl

/-- A pipeline of another kind marks every graphics stage. -/
theorem arrives_setRenderPipeline (c : D3D11Context) (kind : PipelineKind) (compiled : Bool)
    (stage : PipelineStage) :
    Arrives c (c.setRenderPipeline kind compiled) stage
      (c.previousRenderPipelineState ≠ .renderPipelineReady kind ∧ stage ∈ kind.dirtyStages) := by
  unfold setRenderPipeline
  generalize (if compiled = true then EncoderOp.setRenderPipeline kind else EncoderOp.other) = op
  dsimp only
  split
  · next hsame => exact arrives_of_eq (fun h => h.1 hsame) rfl rfl rfl
  · next hother =>
    have hset : Arrives c
        { (c.emitST op).setVertexBuffersDirty with cmdbufState := .renderPipelineReady kind } stage
        False := ⟨rfl, rfl, rfl, fun h => h.elim, fun _ => ⟨rfl, rfl⟩⟩
    have hdirty := (hset.trans (arrives_foldl_setStageDirty kind.dirtyStages _ stage)).congr
      (q := c.previousRenderPipelineState ≠ .renderPipelineReady kind ∧ stage ∈ kind.dirtyStages)
      (by rw [false_or]; exact (and_iff_right hother).symm)
    exact hdirty.untouched rfl rfl rfl

theorem mem_graphicsStages {kind : PipelineKind} {stage : PipelineStage} (h : stage ∈ kind.stages) :
    stage ∈ graphicsStages := by
  cases kind <;> cases stage <;> revert h <;> decide

/-- A pipeline that is set makes the stages dirty whose slots are not those of the pass. -/
theorem arrives_finalizeCurrentRenderPipeline {d : DrawInputs} {kind : PipelineKind}
    (h : c.finalizeCurrentRenderPipeline d = (c', some kind))
    (hready : c.cmdbufState = .renderPipelineReady kind →
      c.previousRenderPipelineState = .renderPipelineReady kind) {stage : PipelineStage}
    (hstage : stage ∈ kind.stages) :
    Arrives c c' stage (c.inRender = false ∨
      (stage ∈ kind.dirtyStages ∧ c.previousRenderPipelineState ≠ .renderPipelineReady kind)) := by
  have hf := finalized c d
  rw [h] at hf
  cases hf with
  | ready _ hstate =>
    have hr : c.inRender = true := by rw [inRender, hstate]
    refine arrives_of_eq (fun hn => ?_) rfl rfl rfl
    rcases hn with hn | hn
    · exact Bool.noConfusion (hr.symm.trans hn)
    · exact hn.2 (hready hstate)
  | set c₁ _ _ hswitch =>
    have hs := arrives_switchToRenderEncoder c d.viewport stage
    rw [hswitch] at hs
    refine (hs.trans (arrives_setRenderPipeline c₁ kind d.compiled stage)).congr ?_
    cases hr : c.inRender with
    | false => exact iff_of_true (.inl ⟨rfl, mem_graphicsStages hstage⟩) (.inl rfl)
    | true =>
      have hsame : c₁ = c := by
        unfold inRender at hr
        unfold switchToRenderEncoder at hswitch
        split at hr
        · next hstate => rw [hstate] at hswitch; cases hswitch; rfl
        · next hstate => rw [hstate] at hswitch; cases hswitch; rfl
        · cases hr
      rw [hsame]
      simp [and_comm]

/-- The state before a draw says what its uploads find. -/
theorem arrives_draw (h : c.PassTables seen) {d : DrawInputs} {kind : PipelineKind}
    (hf : c.flushPendingBufferUpdatesForDrawBindings.finalizeCurrentRenderPipeline d =
      (c', some kind)) {stage : PipelineStage} (hstage : stage ∈ kind.stages) :
    Arrives c c' stage (c.drawRenews kind stage = true) := by
  have hflush := arrives_flushForDraw c stage
  unfold drawRenews
  cases hany : c.drawBindingBuffers.any c.hasPendingBufferUpdateFor with
  | false =>
    have hsame : c.flushPendingBufferUpdatesForDrawBindings = c :=
      if_neg (by rw [hany]; exact Bool.false_ne_true)
    rw [hsame] at hf
    refine (arrives_finalizeCurrentRenderPipeline hf (h.ready kind) hstage).congr ?_
    simp
  | true =>
    have hblit : c.flushPendingBufferUpdatesForDrawBindings.cmdbufState =
        .blitEncoderActive .update := by
      unfold flushPendingBufferUpdatesForDrawBindings flushPendingBufferUpdatesForMany
      rw [if_pos hany, if_pos (by rw [List.any_append, hany, Bool.true_or])]
      have hfold : ∀ (buffers : List Nat) (c : D3D11Context),
          (buffers.foldl (fun c buffer => c.emitBatch .blit buffer) c).cmdbufState =
            c.cmdbufState := by
        intro buffers
        induction buffers with
        | nil => exact fun _ => rfl
        | cons buffer buffers ih =>
          exact fun c => (ih _).trans (cmdbufState_emitBatch .blit c buffer)
      rw [hfold]
      unfold switchToBlitEncoder
      split
      · next hstate => exact hstate
      · rfl
    have hr : c.flushPendingBufferUpdatesForDrawBindings.inRender = false := by
      rw [inRender, hblit]
    have hfinal := arrives_finalizeCurrentRenderPipeline hf
      (fun hstate => CommandBufferState.noConfusion (hblit.symm.trans hstate)) hstage
    refine (hflush.trans hfinal).congr ?_
    simp [hr]

theorem inCompute_invalidateComputePipeline (h : c.inCompute = true) :
    c.invalidateComputePipeline.inCompute = true := by
  unfold inCompute at h
  unfold invalidateComputePipeline
  split at h
  · next hstate =>
    rw [hstate]
    rw [inCompute, hstate]
  · next hstate =>
    rw [hstate]
    rfl
  · cases h

/-- A new compute pass marks the compute stage. -/
theorem arrives_switchToComputeEncoder (c : D3D11Context) :
    Arrives c c.switchToComputeEncoder .compute (c.inCompute = false) := by
  unfold switchToComputeEncoder
  split
  · next hstate =>
    exact arrives_of_eq (by rw [inCompute, hstate]; exact Bool.noConfusion) rfl rfl rfl
  · next hstate =>
    exact arrives_of_eq (by rw [inCompute, hstate]; exact Bool.noConfusion) rfl rfl rfl
  · next hready hactive =>
    have hc : c.inCompute = false := by
      unfold inCompute
      split
      · next hstate => exact absurd hstate hactive
      · next hstate => exact absurd hstate hready
      · rfl
    obtain ⟨hshaders, hout, hcompute, hall, -⟩ :=
      (arrives_invalidateCurrentPass c false .compute).trans
        (arrives_foldl_setStageDirty [.compute] (c.invalidateCurrentPass false) .compute)
    exact ⟨hshaders, hout, hcompute, fun _ => hall (.inr List.mem_cons_self),
      fun hn => absurd hc hn⟩

/-- A flush before a dispatch starts a compute pass when it finds an update and none is open. -/
theorem arrives_flushForCompute (buffers : List Nat) (c : D3D11Context) :
    (c.inCompute = true →
      (buffers.foldl flushPendingBufferUpdatesForCompute c).inCompute = true) ∧
      Arrives c (buffers.foldl flushPendingBufferUpdatesForCompute c) .compute
        (c.inCompute = false ∧
          (buffers.foldl flushPendingBufferUpdatesForCompute c).inCompute = true) := by
  induction buffers generalizing c with
  | nil =>
    exact ⟨id, arrives_of_eq (fun h => nomatch h.1.symm.trans h.2) rfl rfl rfl⟩
  | cons buffer buffers ih =>
    have hone : (c.inCompute = true → (c.flushPendingBufferUpdatesForCompute buffer).inCompute =
        true) ∧
        Arrives c (c.flushPendingBufferUpdatesForCompute buffer) .compute
          (c.inCompute = false ∧ (c.flushPendingBufferUpdatesForCompute
            buffer).inCompute = true) := by
      unfold flushPendingBufferUpdatesForCompute
      split
      · have hcompute : (c.switchToComputeEncoder.emitBatch .emulated
            buffer).invalidateComputePipeline.inCompute = true := by
          refine inCompute_invalidateComputePipeline ?_
          have hswitch := inCompute_switchToComputeEncoder c
          unfold inCompute at hswitch ⊢
          rw [cmdbufState_emitBatch]
          exact hswitch
        refine ⟨fun _ => hcompute, ?_⟩
        have hbatch := (arrives_switchToComputeEncoder c).trans
          (arrives_emitBatch .emulated c.switchToComputeEncoder buffer .compute)
        refine (hbatch.congr (q := c.inCompute = false ∧ _) ?_).untouched ?_ ?_ ?_
        · rw [or_false, and_iff_left hcompute]
        all_goals
          unfold invalidateComputePipeline
          split <;> rfl
      · exact ⟨id, arrives_of_eq (fun h => nomatch h.1.symm.trans h.2) rfl rfl rfl⟩
    obtain ⟨hkeep, hrest⟩ := ih (c.flushPendingBufferUpdatesForCompute buffer)
    refine ⟨fun hc => hkeep (hone.1 hc), (hone.2.trans hrest).congr ?_⟩
    rw [List.foldl_cons]
    have hkeep' := hone.1
    generalize c.flushPendingBufferUpdatesForCompute buffer = c₁ at hkeep hkeep' ⊢
    generalize buffers.foldl flushPendingBufferUpdatesForCompute c₁ = c₂ at hkeep ⊢
    cases h0 : c.inCompute <;> cases h1 : c₁.inCompute <;> cases h2 : c₂.inCompute <;> simp_all

/-- The state before a dispatch says what its upload finds. -/
theorem arrives_dispatch {d : DispatchInputs}
    (h : (c.flushPendingBufferUpdatesForComputeBindings.finalizeCurrentComputePipeline
      d.compiled).2 = true) :
    Arrives c (c.flushPendingBufferUpdatesForComputeBindings.finalizeCurrentComputePipeline
      d.compiled).1 .compute ((!c.inCompute) = true) := by
  have hflush : (c.inCompute = true →
      c.flushPendingBufferUpdatesForComputeBindings.inCompute = true) ∧
      Arrives c c.flushPendingBufferUpdatesForComputeBindings .compute
        (c.inCompute = false ∧ c.flushPendingBufferUpdatesForComputeBindings.inCompute = true) := by
    unfold flushPendingBufferUpdatesForComputeBindings
    split
    · exact arrives_flushForCompute _ c
    · exact ⟨id, arrives_of_eq (fun h => nomatch h.1.symm.trans h.2) rfl rfl rfl⟩
  obtain ⟨hkeep, harrives⟩ := hflush
  generalize c.flushPendingBufferUpdatesForComputeBindings = c₁ at h hkeep harrives ⊢
  have hfinal : Arrives c₁ (c₁.finalizeCurrentComputePipeline d.compiled).1 .compute
      (c₁.inCompute = false) := by
    unfold finalizeCurrentComputePipeline at h ⊢
    split
    · next hstate =>
      exact arrives_of_eq (by rw [inCompute, hstate]; exact Bool.noConfusion) rfl rfl rfl
    · next hstate =>
      rw [if_neg hstate] at h
      dsimp only at h ⊢
      split
      · next hnone => rw [hnone] at h; cases h
      · exact (arrives_switchToComputeEncoder c₁).untouched rfl rfl rfl
  refine (harrives.trans hfinal).congr ?_
  cases h0 : c.inCompute <;> cases h1 : c₁.inCompute <;> simp_all

/-! ## Draws and dispatches -/

/-- What the uploads of `PreDraw` leave of what is seen. -/
theorem Inv.preDraw (h : c.Inv spec seen) (d : DrawInputs) :
    (c.preDraw d).1.Inv spec (c.seenDraw seen (c.preDraw d).2) := by
  have hflush := h.flushPendingBufferUpdatesForDrawBindings
  have hfinal := hflush.finalizeCurrentRenderPipeline d
  rw [preDraw_eq]
  split
  · exact hflush
  · cases hf : c.flushPendingBufferUpdatesForDrawBindings.finalizeCurrentRenderPipeline d with
    | mk p status =>
      rw [hf] at hfinal
      cases status with
      | none => exact hfinal
      | some kind =>
        have huploads := hfinal.uploads_foldl kind.stages (fun _ hs => hs) (nodup_stages kind)
          (finalized_state hf)
        have hseen : p.seenUploads seen kind.stages = c.seenDraw seen (some kind) := by
          funext stage
          unfold seenUploads seenDraw
          dsimp only
          split
          · next hstage => exact (arrives_draw h.tables hf hstage).seenUpload _
          · rfl
        rwa [hseen] at huploads

/-- Up to its upload, a dispatch keeps the invariant. -/
theorem Inv.preDispatch (h : c.Inv spec seen) (d : DispatchInputs) :
    (c.preDispatch d).1.Inv spec (c.seenDispatch seen (c.preDispatch d).2) := by
  have hfinal := h.flushPendingBufferUpdatesForComputeBindings.finalizeCurrentComputePipeline
    d.compiled
  cases hstatus : (c.preDispatch d).2 with
  | true =>
    obtain ⟨hready, hdone, heq⟩ := c.preDispatch_true hstatus
    have hupload := hfinal.uploadCompute hready
    rw [(arrives_dispatch hdone).seenUpload] at hupload
    exact heq ▸ hupload
  | false =>
    unfold D3D11Context.preDispatch at hstatus ⊢
    generalize c.flushPendingBufferUpdatesForComputeBindings.finalizeCurrentComputePipeline
      d.compiled = result at hstatus hfinal ⊢
    obtain ⟨p, status⟩ := result
    cases status with
    | false => exact hfinal
    | true => cases hstatus

theorem Inv.flushArguments (h : c.Inv spec seen) (indirect : Option (Option Nat)) :
    (c.flushArguments indirect).Inv spec seen := by
  unfold D3D11Context.flushArguments
  split
  · exact h.quiet (quiet_flushPendingBufferUpdatesFor _ _)
  · exact h

/-- A draw keeps the invariant. -/
theorem Inv.draw (h : c.Inv spec seen) (d : DrawInputs) :
    (c.draw d).Inv spec (c.seenStep seen (.draw d)) := by
  show (c.draw d).Inv spec (c.seenDraw seen (if d.valid then (c.preDraw d).2 else none))
  cases hvalid : d.valid with
  | false =>
    rw [c.draw_of_not_valid hvalid]
    exact h
  | true =>
    have hpre := h.preDraw d
    rw [if_pos rfl]
    cases hd : c.drawn d with
    | none => exact c.draw_of_valid hvalid hd ▸ hpre
    | some kind =>
      rw [c.draw_of_drawn hd]
      exact (hpre.flushArguments _).quiet (quiet_emitOP (neutral_draw kind) _ _ _)

/-- A dispatch keeps the invariant. -/
theorem Inv.dispatch (h : c.Inv spec seen) (d : DispatchInputs) :
    (c.dispatch d).Inv spec (c.seenStep seen (.dispatch d)) := by
  have hpre := h.preDispatch d
  show (c.dispatch d).Inv spec (c.seenDispatch seen (c.preDispatch d).2)
  cases hd : c.dispatched d with
  | false => exact c.dispatch_of_not_dispatched hd ▸ hpre
  | true =>
    rw [c.dispatch_of_dispatched hd]
    exact (hpre.flushArguments _).quiet (quiet_emitOP neutral_dispatch _ _ _)

/-- A command that is emitted after the uploads leaves the tables. -/
theorem TablesFresh.emitOP {op : EncoderOp} (hop : Neutral op) {stage : PipelineStage}
    {kind : PipelineKind} (h : c.TablesFresh spec stage kind) (reads writes : List Nat) :
    (c.emitOP op reads writes).TablesFresh spec stage kind := by
  constructor
  · intro shader hshader hne
    rw [encoder_emitOP, hop.tables]
    exact h.constants shader hshader hne
  · intro shader hshader hne
    rw [encoder_emitOP, hop.tables]
    exact h.arguments shader hshader hne

theorem emits_emitOP (c : D3D11Context) (op : EncoderOp) (reads writes : List Nat) :
    (c.emitOP op reads writes).Emits op :=
  ⟨c.commands, _, rfl, rfl⟩

/-- What is encoded for a draw is what its preparation says. -/
theorem drawn_status {d : DrawInputs} {kind : PipelineKind} (h : c.drawn d = some kind) :
    (c.preDraw d).2 = some kind := by
  unfold drawn at h
  split at h
  · exact h
  · cases h

/-- A draw that meets the condition reads the tables of what is bound. -/
theorem tablesFresh_draw (h : c.Inv spec seen) {d : DrawInputs} {kind : PipelineKind}
    (hmeets : c.TablesMeet seen (.draw d)) (hd : c.drawn d = some kind) :
    (c.draw d).Emits (.draw kind) ∧
      ∀ stage ∈ kind.stages, (c.draw d).TablesFresh spec stage kind := by
  obtain ⟨hkept, hflushes⟩ := hmeets kind hd
  rw [c.draw_of_drawn hd, c.flushArguments_preDraw hflushes]
  refine ⟨emits_emitOP _ _ _ _, fun stage hstage => ?_⟩
  obtain ⟨hready, hstatus, heq⟩ := c.preDraw_some (drawn_status hd)
  have hfinal := h.flushPendingBufferUpdatesForDrawBindings.finalizeCurrentRenderPipeline d
  refine TablesFresh.emitOP (neutral_draw kind) ?_ _ _
  rw [heq]
  refine tablesFresh_uploads kind.stages (fun _ hs => hs) (nodup_stages kind) hfinal hready
    (fun s hs => ?_) stage hstage
  exact (hkept s hs).kept (arrives_draw h.tables (Prod.ext rfl hstatus) hs)
    fun shader hshader => hfinal.tables.stageTables hready hs shader hshader

/-- A dispatch that meets the condition reads the tables of what is bound. -/
theorem tablesFresh_dispatch (h : c.Inv spec seen) {d : DispatchInputs}
    (hmeets : c.TablesMeet seen (.dispatch d)) (hd : c.dispatched d = true) :
    (c.dispatch d).Emits .dispatch ∧ (c.dispatch d).TablesFresh spec .compute .ordinary := by
  obtain ⟨hkept, hflushes⟩ := hmeets hd
  rw [c.dispatch_of_dispatched hd, c.flushArguments_preDispatch hflushes]
  refine ⟨emits_emitOP _ _ _ _, TablesFresh.emitOP neutral_dispatch ?_ _ _⟩
  unfold dispatched at hd
  obtain ⟨hready, hdone, heq⟩ := c.preDispatch_true (Bool.and_eq_true_iff.mp hd).1
  have hfinal := h.flushPendingBufferUpdatesForComputeBindings.finalizeCurrentComputePipeline
    d.compiled
  have htables := fun shader hshader =>
    hfinal.tables.compute (by rw [inCompute, hready]) shader hshader
  rw [heq]
  exact tablesFresh_upload hfinal.mirror htables (hkept.kept (arrives_dispatch hdone) htables)

end D3D11Context

namespace Bindings

/-! ## What the setters do to the views -/

/-- From `s` to `t`, a shader resource view that changes is made dirty, and the unordered access
views stay. -/
structure TracksViews (s t : Bindings) : Prop where
  srvs : ∀ stage, (s.srvs stage).Tracks (t.srvs stage)
  outputUAVs : t.outputUAVs.storage = s.outputUAVs.storage
  computeUAVs : t.computeUAVs.storage = s.computeUAVs.storage

variable {s t u : Bindings}

/-- Nothing but what is no view changes. -/
theorem TracksViews.of_eq (hsrvs : t.srvs = s.srvs)
    (hout : t.outputUAVs.storage = s.outputUAVs.storage)
    (hcompute : t.computeUAVs.storage = s.computeUAVs.storage) : s.TracksViews t :=
  ⟨fun stage => by rw [hsrvs]; exact .refl _, hout, hcompute⟩

theorem TracksViews.refl (s : Bindings) : s.TracksViews s := .of_eq rfl rfl rfl

theorem TracksViews.trans (h : s.TracksViews t) (h' : t.TracksViews u) : s.TracksViews u :=
  ⟨fun stage => (h.srvs stage).trans (h'.srvs stage), h'.outputUAVs.trans h.outputUAVs,
    h'.computeUAVs.trans h.computeUAVs⟩

theorem tracksViews_foldl {α : Type*} {f : Bindings → α → Bindings}
    (hf : ∀ (s : Bindings) a, s.TracksViews (f s a)) (xs : List α) (s : Bindings) :
    s.TracksViews (xs.foldl f s) := by
  induction xs generalizing s with
  | nil => exact .refl s
  | cons a xs ih => exact (hf s a).trans (ih (f s a))

theorem tracksViews_setSRVs {stage : PipelineStage} {set : BindingSet D3D11View}
    (h : (s.srvs stage).Tracks set) : s.TracksViews (s.setSRVs stage set) :=
  ⟨BindingSet.tracks_update h, rfl, rfl⟩

theorem tracksViews_bindShaderResource (s : Bindings) (stage : PipelineStage) (slot : Nat)
    (view : Option D3D11View) : s.TracksViews (s.bindShaderResource stage slot view) := by
  unfold bindShaderResource
  split
  · split
    · exact tracksViews_setSRVs (BindingSet.tracks_bind _ _ _ _)
    · exact tracksViews_setSRVs (BindingSet.tracks_unbind _ _)
  · exact tracksViews_setSRVs (BindingSet.tracks_unbind _ _)

theorem tracksViews_setShaderResource (stage : PipelineStage) (slot : Nat)
    (views : List (Option D3D11View)) (s : Bindings) :
    s.TracksViews (setShaderResource stage slot views s) := by
  induction views generalizing slot s with
  | nil => exact .refl s
  | cons view views ih => exact (tracksViews_bindShaderResource s stage slot view).trans (ih ..)

theorem tracksViews_setVertexBuffers (slot : Nat)
    (buffers : List (Option D3D11Resource × Option Nat × Option Nat)) (s : Bindings) :
    s.TracksViews (setVertexBuffers slot buffers s) := by
  have hbind : ∀ (s : Bindings) slot buffer stride offset,
      s.TracksViews (s.bindVertexBuffer slot buffer stride offset) := by
    intro s slot buffer stride offset
    unfold bindVertexBuffer
    split
    · split
      · dsimp only
        split
        · exact .of_eq rfl rfl rfl
        · split
          · exact .of_eq rfl rfl rfl
          · exact .of_eq rfl rfl rfl
      · exact .of_eq rfl rfl rfl
    · exact .of_eq rfl rfl rfl
  induction buffers generalizing slot s with
  | nil => exact .refl s
  | cons buffer buffers ih => exact (hbind ..).trans (ih ..)

/-- What a hazard unbinds is marked. -/
theorem tracksViews_resolveSRVHazard (s : Bindings) (stage : PipelineStage) (flags : BindFlags)
    (overlaps : D3D11View → Bool) : s.TracksViews (s.resolveSRVHazard stage flags overlaps) := by
  unfold resolveSRVHazard
  split
  · exact tracksViews_setSRVs (BindingSet.tracks_resolveHazards _ _ _)
  · exact .refl s

theorem tracksViews_omResolveSRVHazard (s : Bindings) (flags : BindFlags)
    (overlaps : D3D11View → Bool) : s.TracksViews (s.omResolveSRVHazard flags overlaps) :=
  tracksViews_foldl (fun s stage => tracksViews_resolveSRVHazard s stage flags overlaps) _ s

theorem tracksViews_resolveIAHazard (s : Bindings) (flags : BindFlags)
    (overlaps : D3D11Resource → Bool) : s.TracksViews (s.resolveIAHazard flags overlaps) := by
  unfold resolveIAHazard
  dsimp only
  split
  · split <;> exact .of_eq rfl rfl rfl
  · split <;> exact .of_eq rfl rfl rfl

theorem tracksViews_omResolveRTVHazard (s : Bindings) (view : D3D11View) :
    s.TracksViews (s.omResolveRTVHazard view) := by
  unfold omResolveRTVHazard
  split <;> exact .of_eq rfl rfl rfl

/-- A target that is bound marks what it unbinds. -/
theorem tracksViews_setRTV (s : Bindings) (slot : Nat) (view : Option D3D11TargetView) :
    s.TracksViews (s.setRTV slot view) := by
  unfold setRTV
  split
  · split
    · exact .refl s
    · next rtv _ =>
      obtain ⟨hsrvs, hout, hcompute⟩ := tracksViews_omResolveSRVHazard
        { s with rtvs := Function.update s.rtvs slot (some rtv) } rtv.bindFlags
        (checkOverlap · rtv.toD3D11View)
      exact ⟨hsrvs, hout, hcompute⟩
  · exact .of_eq rfl rfl rfl

theorem tracksViews_setDSV (s : Bindings) (view : Option D3D11TargetView) :
    s.TracksViews (s.setDSV view) := by
  unfold setDSV
  split
  · split
    · exact .refl s
    · next dsv _ =>
      obtain ⟨hsrvs, hout, hcompute⟩ := tracksViews_omResolveSRVHazard
        { s with dsv := some dsv } dsv.bindFlags (checkOverlap · dsv.toD3D11View)
      exact ⟨hsrvs, hout, hcompute⟩
  · exact .of_eq rfl rfl rfl

theorem tracksViews_setRenderTargets (s : Bindings) (rtvs : List (Option D3D11TargetView))
    (dsv : Option D3D11TargetView) : s.TracksViews (s.setRenderTargets rtvs dsv) := by
  have hrtvs := tracksViews_foldl (fun s slot => tracksViews_setRTV s slot rtvs[slot]?.join)
    (List.range renderTargetCount) s
  obtain ⟨hsrvs, hout, hcompute⟩ := tracksViews_setDSV
    { s.setRTVs rtvs renderTargetCount with numRTVs := rtvs.length } dsv
  exact ⟨fun stage => (hrtvs.srvs stage).trans (hsrvs stage), hout.trans hrtvs.outputUAVs,
    hcompute.trans hrtvs.computeUAVs⟩

theorem tracksViews_soSetTargets (s : Bindings) (targets : List (Option D3D11Resource × Nat)) :
    s.TracksViews (s.soSetTargets targets) := by
  have htarget : ∀ (s : Bindings) slot buffer offset,
      s.TracksViews (s.setTarget slot buffer offset) := by
    intro s slot buffer offset
    unfold setTarget
    split
    · split
      · split
        · exact .of_eq rfl rfl rfl
        · next b _ _ streamOutput _ =>
          obtain ⟨hsrvs, hout, hcompute⟩ := (tracksViews_omResolveSRVHazard
            { s with streamOutput := streamOutput } b.bindFlags (checkOverlapBuffer b)).trans
              (tracksViews_resolveIAHazard _ b.bindFlags fun r => decide (r = b))
          exact ⟨hsrvs, hout, hcompute⟩
      · exact .of_eq rfl rfl rfl
    · exact .of_eq rfl rfl rfl
  unfold soSetTargets
  split
  · exact .refl s
  · exact tracksViews_foldl (fun s slot => htarget ..) _ s

/-- A binding is redundant only when it is the same view. -/
theorem eq_of_isRedundant {a b : D3D11View} (h : RedundantBindingTrait.isRedundant a b = true) :
    a = b :=
  of_decide_eq_true h

/-- A slot of unordered access views has the view afterwards. -/
theorem setComputeUAV_views (s : Bindings) (slot : Nat) (view : Option D3D11View) :
    (∀ stage, (s.srvs stage).Tracks ((s.setComputeUAV slot view).srvs stage)) ∧
      (s.setComputeUAV slot view).outputUAVs.storage = s.outputUAVs.storage ∧
      (s.setComputeUAV slot view).computeUAVs.storage =
        Function.update s.computeUAVs.storage slot view := by
  cases view with
  | none => exact ⟨fun _ => .refl _, rfl, BindingSet.storage_unbind ..⟩
  | some uav =>
    have hbind := BindingSet.storage_bind (fun a b => eq_of_isRedundant) s.computeUAVs slot uav true
    unfold setComputeUAV
    dsimp only
    split
    · next heq =>
      rw [heq, (BindingSet.bind_kept heq).1] at hbind
      exact ⟨fun _ => .refl _, rfl, hbind⟩
    · next computeUAVs heq =>
      rw [heq] at hbind
      have h := tracksViews_resolveSRVHazard { s with computeUAVs := computeUAVs } .compute
        uav.bindFlags (checkOverlap · uav)
      exact ⟨h.srvs, h.outputUAVs, h.computeUAVs.trans hbind⟩

theorem setOutputUAV_views (s : Bindings) (setsRTVs : Bool) (slot : Nat) (view : Option D3D11View) :
    (∀ stage, (s.srvs stage).Tracks ((s.setOutputUAV setsRTVs slot view).srvs stage)) ∧
      (s.setOutputUAV setsRTVs slot view).computeUAVs.storage = s.computeUAVs.storage ∧
      (s.setOutputUAV setsRTVs slot view).outputUAVs.storage =
        Function.update s.outputUAVs.storage slot view := by
  cases view with
  | none => exact ⟨fun _ => .refl _, rfl, BindingSet.storage_unbind ..⟩
  | some uav =>
    have hbind := BindingSet.storage_bind (fun a b => eq_of_isRedundant) s.outputUAVs slot uav true
    unfold setOutputUAV
    dsimp only
    split
    · next heq =>
      rw [heq, (BindingSet.bind_kept heq).1] at hbind
      exact ⟨fun _ => .refl _, rfl, hbind⟩
    · next outputUAVs heq =>
      rw [heq] at hbind
      have h := (tracksViews_omResolveSRVHazard { s with outputUAVs := outputUAVs } uav.bindFlags
        (checkOverlap · uav)).trans
          (tracksViews_resolveIAHazard _ uav.bindFlags (checkOverlapBuffer · uav))
      split
      · have h' := h.trans (tracksViews_omResolveRTVHazard _ uav)
        exact ⟨h'.srvs, h'.computeUAVs, h'.outputUAVs.trans hbind⟩
      · exact ⟨h.srvs, h.computeUAVs, h.outputUAVs.trans hbind⟩

end Bindings

namespace D3D11Context

variable {c c' c'' : D3D11Context} {spec : ConstantBufferSpec}

/-! ## The setters -/

/-- A change of bindings that marks what it changes is quiet. -/
theorem quiet_bindings {bindings : Bindings} (h : c.bindings.TracksViews bindings) :
    Quiet c { c with bindings := bindings } :=
  quiet_of_tracks (fun stage => ⟨rfl, .refl _, .refl _, h.srvs stage⟩) (fun _ => rfl)
    h.outputUAVs h.computeUAVs rfl rfl rfl

/-- Without a shader in the stage, or with everything of the stage dirty. -/
theorem quiet_shader {stage : PipelineStage} {shader : Option ManagedShader}
    (h : shader = none ∨ c'.StageDirty stage)
    (hshaders : c'.shaders = Function.update c.shaders stage shader)
    (htracks : ∀ s, s ≠ stage → StageTracks c c' s) (hholds : Holds c c')
    (htables : c'.encoder.tables = c.encoder.tables) (hstate : c'.cmdbufState = c.cmdbufState)
    (hprevious : c'.previousRenderPipelineState = c.previousRenderPipelineState) : Quiet c c' where
  keeps :=
    { stages := fun s => by
        by_cases hs : s = stage
        · cases hs
          rcases h with hnone | hdirty
          · right; left
            rw [hshaders, Function.update_self, hnone]
          · exact .inl hdirty
        · exact .inr (.inr (htracks s hs))
      render := by unfold inRender; rw [hstate]; exact id
      compute := by unfold inCompute; rw [hstate]; exact id
      tables := fun _ => htables
      previous := fun _ => .inl hprevious
      ready := fun kind hkind => ⟨hstate ▸ hkind, hprevious⟩ }
  holds := hholds

theorem quiet_setShader (c : D3D11Context) (stage : PipelineStage)
    (shader : Option ManagedShader) : Quiet c (c.setShader stage shader) := by
  unfold setShader
  split
  · next s =>
    split
    · exact quiet_refl c
    · have hset : Quiet c
          ({ c with shaders := Function.update c.shaders stage (some s) }.setStageDirty stage) := by
        refine quiet_shader (.inr (stageDirty_setStageDirty _ stage)) rfl (fun t ht => ?_)
          ⟨BindingSet.storage_update rfl, rfl, rfl, rfl, rfl⟩ rfl rfl rfl
        obtain ⟨_, hconstants, hsamplers, hsrvs⟩ := stageTracks_setStageDirty
          { c with shaders := Function.update c.shaders stage (some s) } stage t
        exact ⟨Function.update_of_ne ht .., hconstants, hsamplers, hsrvs⟩
      have hvertex : ∀ c : D3D11Context,
          Quiet c (if stage = .vertex then c.setVertexBuffersDirty else c) := by
        intro c
        split
        · exact quiet_setVertexBuffersDirty c
        · exact quiet_refl c
      have hinvalidate : ∀ c : D3D11Context,
          Quiet c (if stage = .compute then c.setComputeUAVsDirty.invalidateComputePipeline
            else c.setOutputUAVsDirty.invalidateRenderPipeline) := by
        intro c
        split
        · exact (quiet_setComputeUAVsDirty c).trans (quiet_invalidateComputePipeline _)
        · exact (quiet_setOutputUAVsDirty c).trans (quiet_invalidateRenderPipeline _)
      exact (hset.trans (hvertex _)).trans (hinvalidate _)
  · have hset : Quiet c { c with shaders := Function.update c.shaders stage none } := by
      refine quiet_shader (.inl rfl) rfl (fun t ht => ?_) ⟨fun _ => rfl, rfl, rfl, rfl, rfl⟩
        rfl rfl rfl
      exact ⟨Function.update_of_ne ht .., .refl _, .refl _, .refl _⟩
    dsimp only
    split
    · exact hset.trans (quiet_invalidateComputePipeline _)
    · exact hset.trans (quiet_invalidateRenderPipeline _)

theorem tracks_bindSamplers (slot : Nat) (samplers : List (Option D3D11SamplerState))
    (set : BindingSet D3D11SamplerState) : set.Tracks (bindSamplers slot samplers set) := by
  have hbind : ∀ (set : BindingSet D3D11SamplerState) slot sampler,
      set.Tracks (bindSampler set slot sampler) := by
    intro set slot sampler
    unfold bindSampler
    split
    · exact BindingSet.tracks_bind _ _ _ _
    · exact BindingSet.tracks_unbind _ _
  induction samplers generalizing slot set with
  | nil => exact .refl set
  | cons sampler samplers ih => exact (hbind set slot sampler).trans (ih _ _)

theorem quiet_setSamplers (c : D3D11Context) (stage : PipelineStage) (start : Nat)
    (samplers : List (Option D3D11SamplerState)) : Quiet c (c.setSamplers stage start samplers) :=
  quiet_of_tracks
    (fun s => ⟨rfl, .refl _, BindingSet.tracks_update (tracks_bindSamplers _ _ _) s, .refl _⟩)
    (fun _ => rfl) rfl rfl rfl rfl rfl

theorem quiet_setShaderResource (c : D3D11Context) (stage : PipelineStage) (start : Nat)
    (views : List (Option D3D11View)) : Quiet c (c.setShaderResource stage start views) := by
  have hset := quiet_bindings (Bindings.tracksViews_setShaderResource stage start views c.bindings)
  unfold setShaderResource
  dsimp only
  split
  · exact hset.trans (quiet_invalidateRenderPipeline _)
  · exact hset

/-! ## Constant buffers -/

/-- What a slot says to the specification. -/
def specEntry (entry : ConstantBufferBinding) : D3D11Resource × Nat :=
  (entry.buffer, entry.firstConstant)

/-- A slot holds what the call says, and a changed slot is dirty. -/
theorem bindConstantBuffer_spec (set : BindingSet ConstantBufferBinding) (slot : Nat)
    (buffer : Option (D3D11Resource × Nat)) (first num : Option Nat) :
    set.Tracks (bindConstantBuffer set slot buffer first num) ∧
      (∀ i, i ≠ slot →
        (bindConstantBuffer set slot buffer first num).storage i = set.storage i) ∧
      ((∀ b byteWidth entry, buffer = some (b, byteWidth) → first = none →
          set.storage slot = some entry → entry.buffer = b → entry.firstConstant = 0) →
        ((bindConstantBuffer set slot buffer first num).storage slot).map specEntry =
          buffer.map fun b => (b.1, first.getD 0)) := by
  unfold bindConstantBuffer
  split
  · next b byteWidth =>
    split
    · next set' heq =>
      have htracks := BindingSet.tracks_bind set slot ⟨b, first.getD 0, num.getD (byteWidth >>> 4)⟩
        true
      rw [heq] at htracks
      rw [BindingSet.bind_replaced heq]
      refine ⟨htracks, fun i hi => Function.update_of_ne hi .., fun _ => ?_⟩
      rw [Function.update_self]
      rfl
    · next set' heq =>
      obtain ⟨hsame, old, hold, hredundant⟩ := BindingSet.bind_kept heq
      have hbuffer : old.buffer = b := of_decide_eq_true hredundant
      rw [hsame, hold]
      dsimp only
      have hother : ∀ i, i ≠ slot → ∀ set' : BindingSet ConstantBufferBinding,
          set'.storage = set.storage → ∀ entry,
            (set'.assign slot entry).storage i = set.storage i := by
        intro i hi set' hset' entry
        rw [BindingSet.storage_assign, Function.update_of_ne hi, hset']
      have hentry : (∀ b' byteWidth' entry, some (b, byteWidth) = some (b', byteWidth') →
          first = none → some old = some entry → entry.buffer = b' → entry.firstConstant = 0) →
          some (old.buffer, first.getD old.firstConstant) =
            (some (b, byteWidth)).map fun b => (b.1, first.getD 0) := by
        intro hmeets
        rw [hbuffer]
        cases first with
        | none => rw [Option.getD_none, hmeets b byteWidth old rfl rfl rfl hbuffer]; rfl
        | some first => rfl
      split
      · refine ⟨BindingSet.tracks_assign_setDirtySlot _ _ _, fun i hi => hother i hi _ rfl _,
          fun hmeets => ?_⟩
        rw [BindingSet.storage_assign, Function.update_self]
        exact hentry hmeets
      · next hclean =>
        refine ⟨?_, fun i hi => hother i hi _ rfl _, fun hmeets => ?_⟩
        · refine BindingSet.tracks_assign_same ?_
          have hfirst : first.getD old.firstConstant = old.firstConstant := by
            cases first with
            | none => rfl
            | some first =>
              by_contra hne
              exact hclean (Bool.or_eq_true_iff.mpr (.inl (decide_eq_true hne)))
          have hnum : num.getD old.numConstants = old.numConstants := by
            cases num with
            | none => rfl
            | some num =>
              by_contra hne
              exact hclean (Bool.or_eq_true_iff.mpr (.inr (decide_eq_true hne)))
          rw [hfirst, hnum, hold]
        · rw [BindingSet.storage_assign, Function.update_self]
          exact hentry hmeets
  · refine ⟨BindingSet.tracks_unbind _ _, fun i hi => ?_, fun _ => ?_⟩
    · rw [BindingSet.storage_unbind, Function.update_of_ne hi]
    · rw [BindingSet.storage_unbind, Function.update_self]
      rfl

theorem bindConstantBuffers_spec (slot : Nat)
    (buffers : List (Option (D3D11Resource × Nat) × Option Nat × Option Nat))
    (set : BindingSet ConstantBufferBinding) (entries : Nat → Option (D3D11Resource × Nat))
    (hentries : ∀ i, entries i = (set.storage i).map specEntry)
    (hmeets : ∀ i b byteWidth num entry, buffers[i]? = some (some (b, byteWidth), none, num) →
      set.storage (slot + i) = some entry → entry.buffer = b → entry.firstConstant = 0) :
    set.Tracks (bindConstantBuffers slot buffers set) ∧
      ∀ i, specBind slot buffers entries i =
        ((bindConstantBuffers slot buffers set).storage i).map specEntry := by
  induction buffers generalizing slot set entries with
  | nil => exact ⟨.refl set, hentries⟩
  | cons head buffers ih =>
    obtain ⟨buffer, first, num⟩ := head
    obtain ⟨htracks, hother, hslot⟩ := bindConstantBuffer_spec set slot buffer first num
    have hslot := hslot fun b byteWidth entry hbuffer hfirst hentry hsame =>
      hmeets 0 b byteWidth num entry (by rw [hbuffer, hfirst]; rfl) hentry hsame
    obtain ⟨htracks', hspec⟩ := ih (slot + 1) (bindConstantBuffer set slot buffer first num)
      (Function.update entries slot (buffer.map fun b => (b.1, first.getD 0)))
      (fun i => by
        by_cases hi : i = slot
        · rw [hi, Function.update_self, hslot]
        · rw [Function.update_of_ne hi, hother i hi, hentries])
      (fun i b byteWidth num entry hbuffer hentry hsame => by
        rw [hother _ (by omega)] at hentry
        refine hmeets (i + 1) b byteWidth num entry hbuffer ?_ hsame
        rw [← hentry]
        congr 1
        omega)
    exact ⟨htracks.trans htracks', hspec⟩

theorem Inv.setConstantBuffer (h : c.Inv spec seen) (stage : PipelineStage) (start : Nat)
    (buffers : List (Option (D3D11Resource × Nat) × Option Nat × Option Nat))
    (hmeets : c.TablesMeet seen (.setConstantBuffer stage start buffers)) :
    (c.setConstantBuffer stage start buffers).Inv
      (Function.update spec stage (specBind start buffers (spec stage))) seen := by
  obtain ⟨htracks, hspec⟩ := bindConstantBuffers_spec start buffers (c.constantBuffers stage)
    (spec stage) (h.mirror.constants stage) hmeets
  constructor
  · constructor
    · intro s slot
      unfold D3D11Context.setConstantBuffer
      dsimp only
      by_cases hs : s = stage
      · cases hs
        rw [Function.update_self, Function.update_self]
        exact hspec slot
      · rw [Function.update_of_ne hs, Function.update_of_ne hs]
        exact h.mirror.constants s slot
    · exact h.mirror.outputUAVs
    · exact h.mirror.computeUAVs
  · exact h.tables.keeps
      { stages := fun s => .inr (.inr ⟨rfl, BindingSet.tracks_update htracks s, .refl _, .refl _⟩)
        render := id
        compute := id
        tables := fun _ => rfl
        previous := fun _ => .inl rfl
        ready := fun kind hkind => ⟨hkind, rfl⟩ }

/-! ## Unordered access views and render targets -/

/-- A slot that is not replaced has the view. -/
theorem storage_of_not_replaced {set : BindingSet D3D11View} {slot : Nat} {uav : D3D11View}
    (h : (set.bind slot uav true).2 = false) : set.storage slot = some uav := by
  have heq : set.bind slot uav true = ((set.bind slot uav true).1, false) := Prod.ext rfl h
  obtain ⟨_, old, hold, hredundant⟩ := BindingSet.bind_kept heq
  rw [hold, Bindings.eq_of_isRedundant hredundant]

theorem setComputeUAV_eq (c : D3D11Context) (slot : Nat) (view : Option D3D11View) :
    c.setComputeUAV slot view = { c with bindings := c.bindings.setComputeUAV slot view } ∧
        c.bindings.computeUAVs.storage slot = view ∨
      c.setComputeUAV slot view =
        { c.emitST (.bindOutput true slot view) with
          bindings := c.bindings.setComputeUAV slot view } := by
  unfold setComputeUAV
  cases view with
  | none =>
    dsimp only
    split
    · exact .inr rfl
    · next hbound => exact .inl ⟨rfl, by simpa [BindingSet.testBound] using hbound⟩
  | some uav =>
    dsimp only
    split
    · exact .inr rfl
    · next hkept => exact .inl ⟨rfl, storage_of_not_replaced (Bool.not_eq_true _ |>.mp hkept)⟩

theorem setOutputUAV_eq (c : D3D11Context) (setsRTVs : Bool) (slot : Nat)
    (view : Option D3D11View) :
    c.setOutputUAV setsRTVs slot view =
          { c with bindings := c.bindings.setOutputUAV setsRTVs slot view } ∧
        c.bindings.outputUAVs.storage slot = view ∨
      c.setOutputUAV setsRTVs slot view =
        { c.emitST (.bindOutput false slot view) with
          bindings := c.bindings.setOutputUAV setsRTVs slot view } := by
  unfold setOutputUAV
  cases view with
  | none =>
    dsimp only
    split
    · exact .inr rfl
    · next hbound => exact .inl ⟨rfl, by simpa [BindingSet.testBound] using hbound⟩
  | some uav =>
    dsimp only
    split
    · exact .inr rfl
    · next hkept => exact .inl ⟨rfl, storage_of_not_replaced (Bool.not_eq_true _ |>.mp hkept)⟩

/-- The tables of a pass are kept by what makes changed views dirty. -/
theorem PassTables.views (h : c.PassTables seen) {bindings : Bindings}
    (hsrvs : ∀ stage, (c.bindings.srvs stage).Tracks (bindings.srvs stage)) (compute : Bool)
    (slot : Nat) (view : Option D3D11View) :
    { c.emitST (.bindOutput compute slot view) with bindings := bindings }.PassTables seen := by
  have he := encoder_emitST c (.bindOutput compute slot view) []
  refine h.keeps
    { stages := fun s => .inr (.inr ⟨rfl, .refl _, .refl _, hsrvs s⟩)
      render := id
      compute := id
      tables := fun _ => (congrArg EncodingContext.tables he).trans ?_
      previous := fun _ => .inl rfl
      ready := fun kind hkind => ⟨hkind, rfl⟩ }
  cases compute <;> rfl

/-- A slot that is written on both sides. -/
theorem update_eq_update {f g : Nat → Option D3D11View} {n slot : Nat} {view : Option D3D11View}
    (h : ∀ i < n, f i = g i) : ∀ i < n, Function.update f slot view i =
      Function.update g slot view i := by
  intro i hi
  by_cases hslot : i = slot
  · rw [hslot, Function.update_self, Function.update_self]
  · rw [Function.update_of_ne hslot, Function.update_of_ne hslot, h i hi]

theorem Inv.bindComputeUAV (h : c.Inv spec seen) (slot : Nat) (view : Option D3D11View)
    {bindings : Bindings} (hsrvs : ∀ stage, (c.bindings.srvs stage).Tracks (bindings.srvs stage))
    (hout : bindings.outputUAVs.storage = c.bindings.outputUAVs.storage)
    (hcompute : bindings.computeUAVs.storage =
      Function.update c.bindings.computeUAVs.storage slot view) :
    { c.emitST (.bindOutput true slot view) with bindings := bindings }.Inv spec seen := by
  have he := encoder_emitST c (.bindOutput true slot view) []
  refine ⟨?_, h.tables.views hsrvs true slot view⟩
  constructor
  · exact h.mirror.constants
  · intro i hi
    exact (congrFun (congrArg EncodingContext.outputUAVs he) i).trans
      ((h.mirror.outputUAVs i hi).trans (congrFun hout i).symm)
  · intro i hi
    exact (congrFun (congrArg EncodingContext.computeUAVs he) i).trans
      ((update_eq_update h.mirror.computeUAVs i hi).trans (congrFun hcompute i).symm)

theorem Inv.bindOutputUAV (h : c.Inv spec seen) (slot : Nat) (view : Option D3D11View)
    {bindings : Bindings} (hsrvs : ∀ stage, (c.bindings.srvs stage).Tracks (bindings.srvs stage))
    (hcompute : bindings.computeUAVs.storage = c.bindings.computeUAVs.storage)
    (hout : bindings.outputUAVs.storage =
      Function.update c.bindings.outputUAVs.storage slot view) :
    { c.emitST (.bindOutput false slot view) with bindings := bindings }.Inv spec seen := by
  have he := encoder_emitST c (.bindOutput false slot view) []
  refine ⟨?_, h.tables.views hsrvs false slot view⟩
  constructor
  · exact h.mirror.constants
  · intro i hi
    exact (congrFun (congrArg EncodingContext.outputUAVs he) i).trans
      ((update_eq_update h.mirror.outputUAVs i hi).trans (congrFun hout i).symm)
  · intro i hi
    exact (congrFun (congrArg EncodingContext.computeUAVs he) i).trans
      ((h.mirror.computeUAVs i hi).trans (congrFun hcompute i).symm)

theorem Inv.setComputeUAV (h : c.Inv spec seen) (slot : Nat) (view : Option D3D11View) :
    (c.setComputeUAV slot view).Inv spec seen := by
  obtain ⟨hsrvs, hout, hstorage⟩ := Bindings.setComputeUAV_views c.bindings slot view
  rcases c.setComputeUAV_eq slot view with ⟨heq, hkept⟩ | heq
  · rw [← hkept, Function.update_eq_self, hkept] at hstorage
    rw [heq]
    exact h.quiet (quiet_bindings ⟨hsrvs, hout, hstorage⟩)
  · rw [heq]
    exact h.bindComputeUAV slot view hsrvs hout hstorage

theorem Inv.setOutputUAV (h : c.Inv spec seen) (setsRTVs : Bool) (slot : Nat)
    (view : Option D3D11View) : (c.setOutputUAV setsRTVs slot view).Inv spec seen := by
  obtain ⟨hsrvs, hcompute, hstorage⟩ := Bindings.setOutputUAV_views c.bindings setsRTVs slot view
  rcases c.setOutputUAV_eq setsRTVs slot view with ⟨heq, hkept⟩ | heq
  · rw [← hkept, Function.update_eq_self, hkept] at hstorage
    rw [heq]
    exact h.quiet (quiet_bindings ⟨hsrvs, hstorage, hcompute⟩)
  · rw [heq]
    exact h.bindOutputUAV slot view hsrvs hcompute hstorage

theorem Inv.csSetUnorderedAccessViews (h : c.Inv spec seen) (start : Nat)
    (views : List (Option D3D11View)) :
    (c.csSetUnorderedAccessViews start views).Inv spec seen := by
  unfold D3D11Context.csSetUnorderedAccessViews
  split
  · exact h
  · split
    · exact h
    · refine Inv.foldl (fun slot hc => hc.setComputeUAV slot _) (Inv.foldl (fun slot hc =>
      ?_) h _) _
      unfold D3D11Context.csUnbindOverlappingSlot
      split
      · exact hc
      · split
        · exact hc.bindComputeUAV slot none (fun _ => .refl _) rfl (BindingSet.storage_unbind _ _)
        · exact hc

theorem Inv.setOutputUAVs (h : c.Inv spec seen) (setsRTVs : Bool) (start : Nat)
    (uavs : List (Option D3D11View)) : (c.setOutputUAVs setsRTVs start uavs).Inv spec seen := by
  unfold D3D11Context.setOutputUAVs
  refine Inv.foldl (fun slot hc => hc.setOutputUAV setsRTVs slot _) ?_ _
  exact h.quiet (quiet_bindings (.of_eq rfl rfl rfl))

theorem Inv.omSet (h : c.Inv spec seen) (rtvs : Option (List (Option D3D11TargetView)))
    (dsv : Option D3D11TargetView) (start : Nat) (uavs : Option (List (Option D3D11View))) :
    (c.omSetRenderTargetsAndUnorderedAccessViews rtvs dsv start uavs).Inv spec seen := by
  have hviews : ∀ {renderTarget targets}, (uavs.elim (c.withRenderTargets renderTarget targets dsv)
      ((c.withRenderTargets renderTarget targets dsv).setOutputUAVs true start)).Inv spec seen := by
    intro renderTarget targets
    obtain ⟨hsrvs, hout, hcompute⟩ := Bindings.tracksViews_setRenderTargets
      { c.bindings with renderTarget := renderTarget } targets dsv
    have hset : (c.withRenderTargets renderTarget targets dsv).Inv spec seen :=
      h.quiet (quiet_bindings ⟨hsrvs, hout, hcompute⟩)
    cases uavs with
    | none => exact hset
    | some views => exact hset.setOutputUAVs _ _ _
  obtain heq | ⟨views, heq⟩ | ⟨renderTarget, targets, changed, heq⟩ :=
    omSet_cases c rtvs dsv start uavs
  · rw [heq]
    exact h
  · rw [heq]
    exact h.setOutputUAVs _ _ _
  · rw [heq]
    split
    · exact hviews.quiet (quiet_invalidateCurrentPass _ false)
    · exact hviews

/-! ## The other calls -/

/-- The flags of a context say nothing of the tables. -/
theorem quiet_flags (c : D3D11Context) (promoteFlush hasDirtyOp : Bool)
    (updates : List PendingBufferUpdate) :
    Quiet c
      { c with
        promoteFlush := promoteFlush
        hasDirtyOp := hasDirtyOp
        pendingBufferUpdates := updates } :=
  Same.quiet ⟨rfl, rfl, rfl, rfl, rfl, rfl⟩ rfl rfl rfl

theorem quiet_promoteFlush (c : D3D11Context) (promoteFlush : Bool) :
    Quiet c { c with promoteFlush := promoteFlush } :=
  quiet_flags c promoteFlush c.hasDirtyOp c.pendingBufferUpdates

theorem quiet_blit (c : D3D11Context) (kind : BlitKind) (reads writes : List Nat) :
    Quiet c ((c.switchToBlitEncoder kind).emitOP .blit reads writes) :=
  (quiet_switchToBlitEncoder c kind).trans (quiet_emitOP neutral_blit _ reads writes)

/-- Encoders of their own, where no pass is open. -/
theorem quiet_between (hidle : c.cmdbufState = .idle) (reads writes : List Nat) :
    Quiet c (c.emitOP .passes reads writes) := by
  have he := encoder_emitOP c .passes reads writes
  have hstate : (c.emitOP .passes reads writes).cmdbufState = .idle := hidle
  exact Same.closed ⟨rfl, rfl, rfl, rfl, (congrArg EncodingContext.outputUAVs he).trans rfl,
    (congrArg EncodingContext.computeUAVs he).trans rfl⟩ (by rw [inRender, hstate])
    (by rw [inCompute, hstate])

theorem quiet_counter {samples : Bool} (hidle : samples = true → c.cmdbufState = .idle)
    (reads writes : List Nat) : Quiet c (c.emitOP (counterOp samples) reads writes) := by
  cases samples with
  | false => exact quiet_emitOP neutral_other c reads writes
  | true => exact quiet_between (hidle rfl) reads writes

theorem quiet_passes (c : D3D11Context) (deferCommit : Bool) (reads writes : List Nat) :
    Quiet c ((c.invalidateCurrentPass deferCommit).emitOP .passes reads writes) :=
  (quiet_invalidateCurrentPass c deferCommit).trans
    (quiet_between (cmdbufState_invalidateCurrentPass c deferCommit) reads writes)

theorem quiet_ite {p : Prop} [Decidable p] (h : Quiet c c') (h' : Quiet c c'') :
    Quiet c (if p then c' else c'') := by
  split
  · exact h
  · exact h'

theorem quiet_optional {f : Nat → D3D11Context} (hf : ∀ buffer, Quiet c (f buffer))
    (buffer : Option Nat) :
    Quiet c (match buffer with
      | none => c
      | some buffer => f buffer) := by
  cases buffer with
  | none => exact quiet_refl c
  | some buffer => exact hf buffer

theorem quiet_clearRenderTargetView (c : D3D11Context) (buffer : Option Nat) :
    Quiet c (c.clearRenderTargetView buffer) :=
  (quiet_optional (quiet_flushPendingBufferUpdatesFor c) buffer).trans (quiet_passes _ _ _ _)

theorem Inv.clearUnorderedAccessView (h : c.Inv spec seen) (buffer : Option Nat) :
    (c.clearUnorderedAccessView buffer).Inv spec seen := by
  have hflush := h.quiet
    ((quiet_optional (quiet_flushPendingBufferUpdatesFor c) buffer).trans
      (quiet_invalidateCurrentPass _ true))
  exact hflush.switchToComputeEncoder.quiet
    ((quiet_emitOP neutral_emulated _ _ _).trans (quiet_invalidateCurrentPass _ _))

theorem quiet_copyBuffer (c : D3D11Context) (dst src : Nat) (stagingDst stagingSrc empty : Bool) :
    Quiet c (c.copyBuffer dst src stagingDst stagingSrc empty) := by
  have hflush := (quiet_flushPendingBufferUpdatesFor c dst).trans
    (quiet_flushPendingBufferUpdatesFor _ src)
  have hblit := hflush.trans (quiet_blit _ (copyKind stagingDst stagingSrc) [src] [dst])
  exact quiet_ite hflush (quiet_ite (hblit.trans (quiet_promoteFlush _ true)) hblit)

theorem quiet_copyTexture (c : D3D11Context) (dst src : Option Nat) (emulatedDepthStencil : Bool) :
    Quiet c (c.copyTexture dst src emulatedDepthStencil) := by
  have hcopy := quiet_ite (p := emulatedDepthStencil && (dst.isSome != src.isSome))
    (quiet_passes c true src.toList dst.toList)
    (quiet_blit c (copyKind dst.isSome src.isSome) src.toList dst.toList)
  exact quiet_ite (hcopy.trans (quiet_promoteFlush _ true)) hcopy

theorem quiet_updateTexture (c : D3D11Context) (src : Option Nat) :
    Quiet c (c.updateTexture src) :=
  (quiet_flushAllPendingBufferUpdates c).trans (quiet_blit _ .update _ _)

theorem quiet_flush (c : D3D11Context) : Quiet c c.flush :=
  quiet_ite (quiet_refl c) (quiet_ite
    (((quiet_flushAllPendingBufferUpdates c).trans (quiet_invalidateCurrentPass _ true)).trans
      (quiet_commit _))
    (quiet_refl c))

theorem quiet_iterate_flush (n : Nat) (c : D3D11Context) : Quiet c (Nat.iterate flush n c) := by
  induction n generalizing c with
  | zero => exact quiet_refl c
  | succ n ih => exact (quiet_flush c).trans (ih c.flush)

theorem quiet_map (c : D3D11Context) (buffer : Option Nat) (kind : MapKind) :
    Quiet c (c.map buffer kind) := by
  have hflush := quiet_optional
    (fun buffer => quiet_ite (p := c.deferred) (quiet_refl c)
      (quiet_flushPendingBufferUpdatesFor c buffer)) buffer
  have hsrvs : ∀ c, Quiet c (allStages.foldl setSRVsDirty c) := quiet_foldl quiet_setSRVsDirty _
  have hconstants : ∀ c, Quiet c (allStages.foldl setConstantBuffersDirty c) :=
    quiet_foldl quiet_setConstantBuffersDirty _
  refine hflush.trans ?_
  cases kind with
  | discardBuffer vertexBuffer constantBuffer shaderResource =>
    exact (((quiet_ite (quiet_setVertexBuffersDirty _) (quiet_refl _)).trans
      (quiet_ite (hconstants _) (quiet_refl _))).trans
        (quiet_ite (hsrvs _) (quiet_refl _))).trans (quiet_emitST neutral_other _ _)
  | discardTexture => exact (hsrvs _).trans (quiet_emitST neutral_other _ _)
  | noOverwrite => exact quiet_refl _
  | staging flushes => exact quiet_iterate_flush flushes _

theorem quiet_beginQuery {kind : QueryKind} (hmeets : c.BetweenPasses (.beginQuery kind)) :
    Quiet c (c.beginQuery kind) := by
  have hflush := quiet_ite (p := c.deferred) (quiet_refl c) (quiet_flushAllPendingBufferUpdates c)
  cases kind with
  | event => exact hflush
  | timestamp => exact hflush
  | occlusion => exact hflush.trans (quiet_emitST neutral_other _ _)
  | counter samples =>
    refine hflush.trans (quiet_counter (fun hsamples => ?_) _ _)
    subst hsamples
    obtain ⟨hidle, hnone⟩ := hmeets
    split
    · exact hidle
    · next hdeferred =>
      rw [c.flushAllPendingBufferUpdates_of_nil (hnone.resolve_left hdeferred)]
      exact hidle

theorem quiet_endQuery {kind : QueryKind} (hmeets : c.BetweenPasses (.endQuery kind)) :
    Quiet c (c.endQuery kind) := by
  cases kind with
  | event =>
    refine quiet_ite (quiet_promoteFlush c true) (quiet_ite ?_ (quiet_refl c))
    exact ((quiet_flushAllPendingBufferUpdates c).trans (quiet_passes _ true _ _)).trans
      (quiet_flags _ true false _)
  | timestamp =>
    refine quiet_ite (quiet_promoteFlush c true) ?_
    exact (quiet_passes c true _ _).trans (quiet_promoteFlush _ true)
  | occlusion => exact (quiet_emitST neutral_other c _).trans (quiet_promoteFlush _ true)
  | counter samples =>
    refine (quiet_counter (fun hsamples => ?_) [] []).trans (quiet_promoteFlush _ true)
    subst hsamples
    exact hmeets

/-- The queries of a command list end where no pass is open. -/
theorem quiet_foldl_endQuery (hidle : c.cmdbufState = .idle) (queries : List QueryKind) :
    Quiet c (queries.foldl endQuery c) := by
  induction queries generalizing c with
  | nil => exact quiet_refl c
  | cons kind queries ih =>
    exact (quiet_endQuery (betweenPasses_endQuery hidle kind)).trans
      (ih (cmdbufState_endQuery hidle kind))

theorem quiet_prepareFlush (c : D3D11Context) : Quiet c c.prepareFlush :=
  quiet_ite (quiet_refl c)
    ((quiet_flushAllPendingBufferUpdates c).trans (quiet_invalidateCurrentPass _ true))

theorem quiet_waitUntilGPUIdle (c : D3D11Context) : Quiet c c.waitUntilGPUIdle := by
  have hpass := (quiet_flushAllPendingBufferUpdates c).trans (quiet_invalidateCurrentPass _ false)
  exact quiet_ite (quiet_refl c) (quiet_ite hpass (hpass.trans (quiet_commit _)))

theorem quiet_signal (c : D3D11Context) : Quiet c c.signal :=
  quiet_ite (quiet_refl c)
    (((quiet_flushAllPendingBufferUpdates c).trans (quiet_passes _ false _ _)).trans
      (quiet_flush _))

theorem quiet_wait (hmeets : c.BetweenPasses .wait) : Quiet c c.wait := by
  unfold wait
  split
  · exact quiet_refl c
  · next hdeferred =>
    exact ((quiet_flushAllPendingBufferUpdates c).trans (quiet_flush _)).trans
      (quiet_between (c.cmdbufState_wait (Bool.not_eq_true _ ▸ hdeferred) hmeets) [] [])

/-! ## Command lists -/

/-- Without a pass there are no tables to speak of. -/
theorem passTables_of_closed (hr : c.inRender = false) (hc : c.inCompute = false) :
    c.PassTables seen where
  ready kind hkind := by
    rw [inRender, hkind] at hr
    cases hr
  render h := by
    rw [hr] at h
    cases h
  compute h := by
    rw [hc] at h
    cases h

/-- After `ResetEncodingContextState` no pass is open, and the encoder has no unordered access view.
-/
structure Cleared (c c' : D3D11Context) : Prop where
  constantBuffers : ∀ stage,
    (c'.constantBuffers stage).storage = (c.constantBuffers stage).storage
  outputStorage : c'.bindings.outputUAVs.storage = c.bindings.outputUAVs.storage
  computeStorage : c'.bindings.computeUAVs.storage = c.bindings.computeUAVs.storage
  render : c'.inRender = false
  compute : c'.inCompute = false
  outputUAVs : c'.encoder.outputUAVs = fun _ => none
  computeUAVs : c'.encoder.computeUAVs = fun _ => none

theorem Cleared.quiet (h : Cleared c c') (hq : Quiet c' c'') : Cleared c c'' where
  constantBuffers stage := (hq.holds.constantBuffers stage).trans (h.constantBuffers stage)
  outputStorage := hq.holds.outputStorage.trans h.outputStorage
  computeStorage := hq.holds.computeStorage.trans h.computeStorage
  render := by
    by_contra hr
    have hold := hq.keeps.render (Bool.not_eq_false _ |>.mp hr)
    rw [h.render] at hold
    cases hold
  compute := by
    by_contra hc
    have hold := hq.keeps.compute (Bool.not_eq_false _ |>.mp hc)
    rw [h.compute] at hold
    cases hold
  outputUAVs := hq.holds.outputUAVs.trans h.outputUAVs
  computeUAVs := hq.holds.computeUAVs.trans h.computeUAVs

theorem cleared_resetEncodingContextState (c : D3D11Context) :
    Cleared c c.resetEncodingContextState := by
  have hq := (quiet_flushAllPendingBufferUpdates c).trans
    (quiet_invalidateCurrentPass c.flushAllPendingBufferUpdates true)
  have hidle : c.resetEncodingContextState.cmdbufState = .idle :=
    cmdbufState_invalidateCurrentPass c.flushAllPendingBufferUpdates true
  have he := encoder_emitST (c.flushAllPendingBufferUpdates.invalidateCurrentPass true)
    .clearState []
  exact ⟨hq.holds.constantBuffers, hq.holds.outputStorage, hq.holds.computeStorage,
    by rw [inRender, hidle], by rw [inCompute, hidle], congrArg EncodingContext.outputUAVs he,
    congrArg EncodingContext.computeUAVs he⟩

theorem Cleared.commandList (h : Cleared c c') (reads writes : List Nat) :
    Cleared c (c'.emitOP .commandList reads writes) where
  constantBuffers := h.constantBuffers
  outputStorage := h.outputStorage
  computeStorage := h.computeStorage
  render := h.render
  compute := h.compute
  outputUAVs := congrArg EncodingContext.outputUAVs (encoder_emitOP c' .commandList reads writes)
  computeUAVs := congrArg EncodingContext.computeUAVs (encoder_emitOP c' .commandList reads writes)

theorem Cleared.reset (h : Cleared c c') :
    c'.resetD3D11ContextState.Inv (fun _ _ => none) seen where
  mirror := ⟨fun _ _ => rfl, fun slot _ => congrFun h.outputUAVs slot,
    fun slot _ => congrFun h.computeUAVs slot⟩
  tables := passTables_of_closed h.render h.compute

/-- The unordered access views of the compute functions, or of the others. -/
def boundUAVs (e : EncodingContext) (compute : Bool) : Nat → Option D3D11View :=
  if compute then e.computeUAVs else e.outputUAVs

theorem boundUAVs_bindOutput (e : EncodingContext) (compute : Bool) (slot : Nat)
    (view : Option D3D11View) :
    boundUAVs (e.step (.bindOutput compute slot view)) compute =
      Function.update (boundUAVs e compute) slot view := by
  cases compute <;> rfl

theorem boundUAVs_bindOutput_not (e : EncodingContext) (compute : Bool) (slot : Nat)
    (view : Option D3D11View) :
    boundUAVs (e.step (.bindOutput compute slot view)) (!compute) = boundUAVs e (!compute) := by
  cases compute <;> rfl

/-- The views of the first `n` slots are bound again. -/
structure Restored (c c' : D3D11Context) (compute : Bool) (set : BindingSet D3D11View)
    (n : Nat) : Prop where
  constantBuffers : c'.constantBuffers = c.constantBuffers
  bindings : c'.bindings = c.bindings
  cmdbufState : c'.cmdbufState = c.cmdbufState
  other : boundUAVs c'.encoder (!compute) = boundUAVs c.encoder (!compute)
  bound : ∀ i < n, boundUAVs c'.encoder compute i = set.storage i
  unbound : ∀ i, n ≤ i → boundUAVs c'.encoder compute i = none

theorem restored_restoreUAVs (compute : Bool) (set : BindingSet D3D11View)
    (h : boundUAVs c.encoder compute = fun _ => none) :
    Restored c (c.restoreUAVs compute set) compute set uavSlotCount := by
  unfold restoreUAVs
  generalize uavSlotCount = n
  induction n with
  | zero =>
    exact ⟨rfl, rfl, rfl, rfl, fun _ hi => absurd hi (Nat.not_lt_zero _), fun i _ => congrFun h i⟩
  | succ n ih =>
    rw [List.range_succ, List.foldl_append]
    generalize (List.range n).foldl _ c = c' at ih ⊢
    dsimp only [List.foldl_cons, List.foldl_nil]
    split
    · next hnone =>
      refine { ih with bound := fun i hi => ?_, unbound := fun i hi => ih.unbound i (by omega) }
      by_cases hin : i = n
      · rw [hin, ih.unbound n (Nat.le_refl n), hnone]
      · exact ih.bound i (by omega)
    · next view hview =>
      have he := encoder_emitST c' (.bindOutput compute n (some view)) []
      refine ⟨ih.constantBuffers, ih.bindings, ih.cmdbufState, ?_, fun i hi => ?_, fun i hi => ?_⟩
      · rw [he, boundUAVs_bindOutput_not, ih.other]
      · rw [he, boundUAVs_bindOutput]
        by_cases hin : i = n
        · rw [hin, Function.update_self, hview]
        · rw [Function.update_of_ne hin]
          exact ih.bound i (by omega)
      · rw [he, boundUAVs_bindOutput, Function.update_of_ne (by omega)]
        exact ih.unbound i (by omega)

theorem Cleared.restore (h : Cleared c c') (hm : c.Mirror spec) :
    c'.restoreEncodingContextState.Inv spec seen := by
  have hout := restored_restoreUAVs false c'.bindings.outputUAVs h.outputUAVs
  have hcompute := restored_restoreUAVs true c'.bindings.computeUAVs
    (hout.other.trans h.computeUAVs)
  have hstate : c'.restoreEncodingContextState.cmdbufState = c'.cmdbufState :=
    hcompute.cmdbufState.trans hout.cmdbufState
  have hbindings : c'.restoreEncodingContextState.bindings = c'.bindings :=
    hcompute.bindings.trans hout.bindings
  have hconstants : c'.restoreEncodingContextState.constantBuffers = c'.constantBuffers :=
    hcompute.constantBuffers.trans hout.constantBuffers
  refine ⟨?_, passTables_of_closed ?_ ?_⟩
  · constructor
    · intro stage slot
      rw [hconstants, h.constantBuffers]
      exact hm.constants stage slot
    · intro i hi
      rw [hbindings]
      exact (congrFun hcompute.other i).trans (hout.bound i hi)
    · intro i hi
      rw [hbindings]
      exact hcompute.bound i hi
  · rw [inRender, hstate]
    exact h.render
  · rw [inCompute, hstate]
    exact h.compute

theorem Inv.executeCommandList (h : c.Inv spec seen) (queries : List QueryKind)
    (reads writes : List Nat) (promote restore : Bool) :
    (c.executeCommandList queries reads writes promote restore).Inv
      (if c.deferred || restore then spec else fun _ _ => none) seen := by
  unfold D3D11Context.executeCommandList
  split
  · next hdeferred =>
    rw [hdeferred, Bool.true_or, if_pos rfl]
    exact h
  · next hdeferred =>
    rw [Bool.not_eq_true _ |>.mp hdeferred, Bool.false_or]
    have hidle : { c.resetEncodingContextState with promoteFlush := promote }.cmdbufState = .idle :=
      cmdbufState_invalidateCurrentPass c.flushAllPendingBufferUpdates true
    have hcleared := (((cleared_resetEncodingContextState c).quiet
      (quiet_promoteFlush _ promote)).quiet (quiet_foldl_endQuery hidle queries)).commandList
        reads writes
    dsimp only
    split
    · exact hcleared.restore h.mirror
    · exact hcleared.reset

theorem Inv.finishCommandList (h : c.Inv spec seen) (restore : Bool) :
    (c.finishCommandList restore).Inv
      (if !c.deferred || restore then spec else fun _ _ => none) seen := by
  unfold D3D11Context.finishCommandList
  split
  · next hdeferred =>
    rw [hdeferred, Bool.not_true, Bool.false_or]
    have hflush := quiet_flushAllPendingBufferUpdates c
    have hcleared := (cleared_resetEncodingContextState c.flushAllPendingBufferUpdates).quiet
      (quiet_promoteFlush _ false)
    dsimp only
    split
    · exact hcleared.restore (h.quiet hflush).mirror
    · exact hcleared.reset
  · next hdeferred =>
    rw [Bool.not_eq_true _ |>.mp hdeferred, Bool.not_false, Bool.true_or, if_pos rfl]
    exact h

theorem inv_clearState (c : D3D11Context) : c.clearState.Inv (fun _ _ => none) seen :=
  (cleared_resetEncodingContextState c).reset

/-! ## Runs -/

theorem Inv.exec (h : c.Inv spec seen) {call : Call} (hmeets : c.TablesMeet seen call) :
    (c.exec call).Inv (specStep c.deferred spec call) (c.seenStep seen call) := by
  cases call with
  | setShader stage shader => exact h.quiet (quiet_setShader c stage shader)
  | setConstantBuffer stage start buffers => exact h.setConstantBuffer stage start buffers hmeets
  | setShaderResource stage start views =>
      exact h.quiet (quiet_setShaderResource c stage start views)
  | setSamplers stage start samplers => exact h.quiet (quiet_setSamplers c stage start samplers)
  | csSetUnorderedAccessViews start views => exact h.csSetUnorderedAccessViews start views
  | omSet rtvs dsv start uavs => exact h.omSet rtvs dsv start uavs
  | setVertexBuffers start buffers =>
    exact h.quiet (quiet_bindings (Bindings.tracksViews_setVertexBuffers start buffers c.bindings))
  | setIndexBuffer _ _ _ => exact h.quiet (quiet_bindings (.of_eq rfl rfl rfl))
  | soSetTargets targets =>
    exact h.quiet (quiet_bindings (Bindings.tracksViews_soSetTargets c.bindings targets))
  | setPipelineState => exact h.quiet (quiet_invalidateRenderPipeline c)
  | draw d => exact h.draw d
  | drawAuto => exact h.quiet (quiet_emitST neutral_other c [])
  | dispatch d => exact h.dispatch d
  | clearRenderTargetView buffer => exact h.quiet (quiet_clearRenderTargetView c buffer)
  | clearDepthStencilView => exact h.quiet (quiet_passes c false _ _)
  | clearUnorderedAccessView buffer => exact h.clearUnorderedAccessView buffer
  | clearViewRects buffer => exact h.quiet (quiet_passes c true _ _)
  | generateMips => exact h.quiet (quiet_blit c _ _ _)
  | resolveSubresource => exact h.quiet (quiet_passes c false _ _)
  | copyBuffer dst src stagingDst stagingSrc empty =>
    exact h.quiet (quiet_copyBuffer c dst src stagingDst stagingSrc empty)
  | copyTexture dst src emulatedDepthStencil =>
    exact h.quiet (quiet_copyTexture c dst src emulatedDepthStencil)
  | copyStructureCount dst => exact h.quiet (quiet_blit c _ _ _)
  | updateSubresource dst => exact h.quiet (quiet_flags c _ _ _)
  | updateTexture src => exact h.quiet (quiet_updateTexture c src)
  | map buffer kind => exact h.quiet (quiet_map c buffer kind)
  | temporalUpscale => exact h.quiet (quiet_passes c false _ _)
  | beginQuery kind => exact h.quiet (quiet_beginQuery hmeets)
  | endQuery kind => exact h.quiet (quiet_endQuery hmeets)
  | flush => exact h.quiet (quiet_flush c)
  | executeCommandList queries reads writes promote restore =>
    exact h.executeCommandList queries reads writes promote restore
  | finishCommandList restore => exact h.finishCommandList restore
  | clearState => exact inv_clearState c
  | prepareFlush => exact h.quiet (quiet_prepareFlush c)
  | waitUntilGPUIdle => exact h.quiet (quiet_waitUntilGPUIdle c)
  | signal => exact h.quiet (quiet_signal c)
  | wait => exact h.quiet (quiet_wait hmeets)

theorem Inv.step (h : c.Inv spec seen) {call : Call} (hmeets : c.TablesMeet seen call) :
    (c.step call).Inv (specStep c.deferred spec call) (c.seenStep seen call) := by
  obtain ⟨⟨hconstants, hout, hcompute⟩, hready, hrender, htables⟩ := h.exec hmeets
  refine ⟨⟨hconstants, hout, hcompute⟩, hready, ?_, ?_⟩
  · intro hr kind stage hstage hprevious shader hshader
    obtain ⟨hc, ha⟩ := hrender hr kind stage hstage hprevious shader hshader
    exact ⟨hc, ha⟩
  · intro hc shader hshader
    obtain ⟨hc, ha⟩ := htables hc shader hshader
    exact ⟨hc, ha⟩

theorem Inv.init (deferred : Bool) : (init deferred).Inv (fun _ _ => none) seen :=
  ⟨⟨fun _ _ => rfl, fun _ _ => rfl, fun _ _ => rfl⟩, passTables_of_closed rfl rfl⟩

theorem TableRun.inv (run : TableRun c spec seen) : c.Inv spec seen := by
  induction run with
  | init deferred => exact .init deferred
  | step _ _ meets ih => exact ih.step meets

/-- A compute shader that reads a constant buffer and writes a view, both in slot 0. -/
def writerShader : ManagedShader :=
  { id := 1, constantBuffers := [0], arguments := [⟨.uav, 0⟩] }

/-- The whole of a buffer that compute shaders may write. -/
def writtenView : D3D11View :=
  ⟨1, ⟨1, { unorderedAccess := true }, .buffer 64 (by decide) (by decide)⟩,
    (⟨0, 64, by decide⟩ : SubresourceOverlap.Slice 64)⟩

/-- One constant buffer, whole or from an offset on. -/
def constantsOf (first : Option Nat) : Call :=
  .setConstantBuffer .compute 0 [(some (⟨2, {}, .buffer 256 (by decide) (by decide)⟩, 256), first,
    first.map fun _ => 4)]

/-- The context and the constant buffers after some calls. -/
def runCalls (calls : List Call) : D3D11Context × ConstantBufferSpec :=
  calls.foldl (fun (c, spec) call => (c.step call, specStep c.deferred spec call))
    (init false, fun _ _ => none)

/-- A constant buffer is bound from an offset on, and again without one. -/
theorem tables_fresh_offset : ∃ (calls : List Call) (d : DispatchInputs),
    (runCalls calls).1.dispatched d = true ∧
      ¬ ((runCalls calls).1.dispatch d).TablesFresh (runCalls calls).2 .compute .ordinary := by
  refine ⟨[.setShader .compute (some writerShader), constantsOf (some 4), constantsOf none], {},
    by decide, fun h => ?_⟩
  have hconstants := h.constants writerShader (by decide) (by decide)
  exact absurd hconstants (by decide)

end D3D11Context

end Dxmt
