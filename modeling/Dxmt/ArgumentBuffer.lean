import Dxmt.BumpAllocator
import Dxmt.VertexInput

/-!
# The argument buffer of a pass: `EstimateGraphicsArgumentBufferSize`, `AllocateArgumentBuffer`

A pass reserves as much of the argument buffer as its draws, or its dispatch, are estimated to use.
When the pass is encoded, every table takes a region from a cursor that starts at zero.

Headlines:
* **`estimates_cover_iff`**: in every pass of any run the regions are aligned, apart and within the
  reserved size exactly when the tables, each rounded up to 32 bytes, are no more than the
  estimates; where the counts fit, that is when no shader with arguments has an empty argument
  table.
* **`emptyTable_outside`**: an empty argument table is handed out 8 bytes, and the estimate has none
  for it.

Source: `d3d12_command_queue.cpp:2436-2499, 4697-4841, 5817-5838`.
-/

namespace Dxmt

namespace ArgumentBuffer

open VertexInput BumpAllocator

/-! ## Pipelines -/

/-- `PipelineShaderStage`. -/
inductive PipelineShaderStage
  | vertex
  | pixel
  | geometry
  | hull
  | domain
  | compute
  deriving DecidableEq

/-- What is read of `MTL_SHADER_REFLECTION`. -/
structure ShaderReflection where
  numConstantBuffers : BitVec 32
  numArguments : BitVec 32
  argumentTableQwords : BitVec 32

/-- A shader, with the length of its `argument_info`, which is resized to the number of all
arguments. -/
structure PipelineDxilShader where
  stage : PipelineShaderStage
  reflection : ShaderReflection
  argumentInfo : Nat
  resized : argumentInfo = (reflection.numConstantBuffers + reflection.numArguments).toNat

/-- A pipeline: the input elements of its graphics state, if it has one, and its shaders. -/
structure PipelineState where
  inputElements : Option (List InputElementDesc)
  shaders : List PipelineDxilShader

/-- Whether `constantBufferInfo()` is not null. -/
def PipelineDxilShader.hasConstantBufferInfo (shader : PipelineDxilShader) : Bool :=
  shader.argumentInfo ≠ 0

/-- Whether `resourceArgumentInfo()` is not null. -/
def PipelineDxilShader.hasResourceArgumentInfo (shader : PipelineDxilShader) : Bool :=
  shader.reflection.numConstantBuffers.toNat < shader.argumentInfo

/-! ## Encoding -/

/-- The cursor and the regions handed out so far, as offset and size. -/
structure ArgumentCursor where
  argbufOffset : BitVec 64 := 0
  regions : List (BitVec 64 × BitVec 64) := []

/-- `AllocateArgumentBuffer`: aligned to 32 bytes, at least eight. -/
def allocateArgumentBuffer (s : ArgumentCursor) (size : BitVec 64) : ArgumentCursor :=
  let aligned := (s.argbufOffset + 32 - 1) &&& ~~~(32 - 1)
  let size := if size < 8 then 8 else size
  { argbufOffset := aligned + size, regions := s.regions ++ [(aligned, size)] }

/-- `EncodeShaderBindingsForStage`: the constant table and the argument table. -/
def encodeShaderBindingsForStage (s : ArgumentCursor) (shader : PipelineDxilShader) :
    ArgumentCursor :=
  let s :=
    if shader.reflection.numConstantBuffers ≠ 0 && shader.hasConstantBufferInfo then
      allocateArgumentBuffer s ((shader.reflection.numConstantBuffers <<< 3).setWidth 64)
    else s
  if shader.reflection.numArguments ≠ 0 && shader.hasResourceArgumentInfo then
    allocateArgumentBuffer s ((shader.reflection.argumentTableQwords <<< 3).setWidth 64)
  else s

/-- The table of `EncodeVertexBuffers`. -/
def encodeVertexBufferTable (s : ArgumentCursor) (pipeline : PipelineState) : ArgumentCursor :=
  match pipeline.inputElements with
  | none => s
  | some inputs =>
    if slotMask inputs = 0 then s
    else allocateArgumentBuffer s (BitVec.ofNat 64 (popcount (slotMask inputs)) * 16)

/-- `EncodeGraphicsBindings`: the vertex buffer table, then the tables of the vertex and the pixel
shader. -/
def encodeGraphicsBindings (s : ArgumentCursor) (pipeline : PipelineState) : ArgumentCursor :=
  pipeline.shaders.foldl (fun s shader =>
    if shader.stage = .vertex || shader.stage = .pixel then encodeShaderBindingsForStage s shader
    else s)
    (encodeVertexBufferTable s pipeline)

/-- `EncodeComputeBindings`: the tables of the compute shader. -/
def encodeComputeBindings (s : ArgumentCursor) (pipeline : PipelineState) : ArgumentCursor :=
  pipeline.shaders.foldl (fun s shader =>
    if shader.stage = .compute then encodeShaderBindingsForStage s shader else s) s

/-! ## Estimates -/

/-- `AlignArgumentBufferSize`. -/
def alignArgumentBufferSize (size : BitVec 64) : BitVec 64 :=
  (size + 31) &&& ~~~31

/-- `EstimateShaderArgumentBufferSize`. -/
def estimateShaderArgumentBufferSize (shader : PipelineDxilShader) : BitVec 64 :=
  let size : BitVec 64 := 0
  let size :=
    if shader.reflection.numConstantBuffers ≠ 0 then
      alignArgumentBufferSize size + (shader.reflection.numConstantBuffers.setWidth 64) <<< 3
    else size
  let size :=
    if shader.reflection.numArguments ≠ 0 then
      alignArgumentBufferSize size + (shader.reflection.argumentTableQwords.setWidth 64) <<< 3
    else size
  alignArgumentBufferSize size

/-- `EstimateGraphicsArgumentBufferSize`. -/
def estimateGraphicsArgumentBufferSize (pipeline : PipelineState) : BitVec 64 :=
  let size : BitVec 64 :=
    match pipeline.inputElements with
    | none => 0
    | some inputs =>
      if slotMask inputs = 0 then 0
      else alignArgumentBufferSize 0 + BitVec.ofNat 64 (popcount (slotMask inputs)) * 16
  let size := pipeline.shaders.foldl (fun size shader =>
    if shader.stage = .vertex || shader.stage = .pixel then
      alignArgumentBufferSize size + estimateShaderArgumentBufferSize shader
    else size) size
  alignArgumentBufferSize size

/-- `EstimateComputeArgumentBufferSize`. -/
def estimateComputeArgumentBufferSize (pipeline : PipelineState) : BitVec 64 :=
  alignArgumentBufferSize (pipeline.shaders.foldl (fun size shader =>
    if shader.stage = .compute then
      alignArgumentBufferSize size + estimateShaderArgumentBufferSize shader
    else size) 0)

/-! ## Passes -/

/-- A pass as it is emitted: what it reserves, and whose bindings it encodes. -/
inductive Pass (Attachments : Type)
  | render (attachments : Attachments) (argumentBufferSize : BitVec 64)
      (commands : List PipelineState)
  | compute (argumentBufferSize : BitVec 64) (pipeline : PipelineState)

/-- The draws of one pass and the room that they estimate together. -/
structure GraphicsPassBatch (Attachments : Type) where
  attachments : Attachments
  commands : List PipelineState
  argumentBufferSize : BitVec 64

/-- The replay of a command list: the batch that is active, and the passes emitted. -/
structure ReplayState (Attachments : Type) where
  batch : Option (GraphicsPassBatch Attachments) := none
  passes : List (Pass Attachments) := []

/-- What the replay does with passes. -/
inductive Call (Attachments : Type)
  | queueDraw (attachments : Attachments) (pipeline : PipelineState)
  | emitDraw (attachments : Attachments) (pipeline : PipelineState)
  | dispatch (pipeline : PipelineState)
  | flush

variable {Attachments : Type}

/-- `FlushGraphicsPassBatch`: the batch becomes a pass. -/
def flushGraphicsPassBatch (s : ReplayState Attachments) : ReplayState Attachments :=
  match s.batch with
  | none => s
  | some batch =>
    if batch.commands.isEmpty then s
    else {
      batch := none
      passes := s.passes ++ [.render batch.attachments batch.argumentBufferSize batch.commands] }

/-- `QueueGraphicsPassCommand`; `same` is `ReplayRenderPassAttachmentsMatch`. -/
def queueGraphicsPassCommand (same : Attachments → Attachments → Bool) (s : ReplayState Attachments)
    (attachments : Attachments) (argumentBufferSize : BitVec 64) (pipeline : PipelineState) :
    ReplayState Attachments :=
  let s :=
    match s.batch with
    | some batch => if !same batch.attachments attachments then flushGraphicsPassBatch s else s
    | none => s
  let batch : GraphicsPassBatch Attachments := s.batch.getD ⟨attachments, [], 0⟩
  { s with
    batch := some { batch with
      argumentBufferSize := batch.argumentBufferSize + argumentBufferSize
      commands := batch.commands ++ [pipeline] } }

/-- A pass of its own for one draw. -/
def emitSingleGraphicsPass (s : ReplayState Attachments) (attachments : Attachments)
    (argumentBufferSize : BitVec 64) (pipeline : PipelineState) : ReplayState Attachments :=
  { s with passes := s.passes ++ [.render attachments argumentBufferSize [pipeline]] }

/-- One call of the replay. -/
def step (same : Attachments → Attachments → Bool) (s : ReplayState Attachments) :
    Call Attachments → ReplayState Attachments
  | .queueDraw attachments pipeline =>
    queueGraphicsPassCommand same s attachments (estimateGraphicsArgumentBufferSize pipeline)
      pipeline
  | .emitDraw attachments pipeline =>
    emitSingleGraphicsPass (flushGraphicsPassBatch s) attachments
      (estimateGraphicsArgumentBufferSize pipeline)
      pipeline
  | .dispatch pipeline =>
    { s with passes := s.passes ++
      [.compute (estimateComputeArgumentBufferSize pipeline) pipeline] }
  | .flush => flushGraphicsPassBatch s

/-- A replay from an empty state. -/
def run (same : Attachments → Attachments → Bool) (calls : List (Call Attachments)) :
    ReplayState Attachments :=
  calls.foldl (step same) {}

namespace Pass

/-- The room that the pass reserves. -/
def argumentBufferSize : Pass Attachments → BitVec 64
  | render _ size _ => size
  | compute size _ => size

/-- The regions that are handed out while the pass is encoded; `begins` is whether `BeginRenderPass`
has attachments to begin with. -/
def regions (begins : Attachments → Bool) : Pass Attachments → List (BitVec 64 × BitVec 64)
  | render attachments _ commands =>
    if begins attachments then (commands.foldl encodeGraphicsBindings {}).regions else []
  | compute _ pipeline => (encodeComputeBindings {} pipeline).regions

/-- **Covered**: the regions are aligned, apart, and within what is reserved. -/
structure Covered (begins : Attachments → Bool) (pass : Pass Attachments) : Prop where
  aligned : ∀ region ∈ pass.regions begins, 32 ∣ region.1.toNat
  apart : (pass.regions begins).Pairwise fun r s =>
    r.1.toNat + r.2.toNat ≤ s.1.toNat ∨ s.1.toNat + s.2.toNat ≤ r.1.toNat
  within : ∀ region ∈ pass.regions begins,
    region.1.toNat + region.2.toNat ≤ pass.argumentBufferSize.toNat

end Pass

/-! ## The tables that are encoded -/

/-- The sizes of a shader's tables. -/
def shaderTables (shader : PipelineDxilShader) : List (BitVec 64) :=
  (if shader.reflection.numConstantBuffers ≠ 0 && shader.hasConstantBufferInfo then
    [(shader.reflection.numConstantBuffers <<< 3).setWidth 64] else []) ++
  (if shader.reflection.numArguments ≠ 0 && shader.hasResourceArgumentInfo then
    [(shader.reflection.argumentTableQwords <<< 3).setWidth 64] else [])

/-- The size of the vertex buffer table, where there is one. -/
def vertexTables (pipeline : PipelineState) : List (BitVec 64) :=
  match pipeline.inputElements with
  | none => []
  | some inputs => if slotMask inputs = 0 then
      [] else [BitVec.ofNat 64 (popcount (slotMask inputs)) * 16]

/-- The shaders whose bindings a draw encodes. -/
def graphicsShaders (pipeline : PipelineState) : List PipelineDxilShader :=
  pipeline.shaders.filter fun shader => shader.stage = .vertex || shader.stage = .pixel

/-- The shaders whose bindings a dispatch encodes. -/
def computeShaders (pipeline : PipelineState) : List PipelineDxilShader :=
  pipeline.shaders.filter fun shader => shader.stage = .compute

/-- The sizes of the tables that a draw encodes. -/
def graphicsTables (pipeline : PipelineState) : List (BitVec 64) :=
  vertexTables pipeline ++ (graphicsShaders pipeline).flatMap shaderTables

theorem encodeShaderBindingsForStage_eq (s : ArgumentCursor) (shader : PipelineDxilShader) :
    encodeShaderBindingsForStage s shader =
      (shaderTables shader).foldl allocateArgumentBuffer s := by
  unfold encodeShaderBindingsForStage shaderTables
  rw [List.foldl_append]
  by_cases hbuffers : (shader.reflection.numConstantBuffers ≠ 0 && shader.hasConstantBufferInfo) =
      true
  · rw [if_pos hbuffers, if_pos hbuffers]
    split <;> rfl
  · rw [if_neg hbuffers, if_neg hbuffers]
    split <;> rfl

theorem encodeVertexBufferTable_eq (s : ArgumentCursor) (pipeline : PipelineState) :
    encodeVertexBufferTable s pipeline =
      (vertexTables pipeline).foldl allocateArgumentBuffer s := by
  unfold encodeVertexBufferTable vertexTables
  split
  · rfl
  · split <;> rfl

/-- A walk over the shaders of some stages takes up the tables of these. -/
theorem foldl_encode (used : PipelineDxilShader → Bool) (shaders : List PipelineDxilShader)
    (s : ArgumentCursor) :
    shaders.foldl (fun s shader => if used shader then encodeShaderBindingsForStage s shader
    else s) s =
      ((shaders.filter used).flatMap shaderTables).foldl allocateArgumentBuffer s := by
  induction shaders generalizing s with
  | nil => rfl
  | cons shader shaders ih =>
    rw [List.foldl_cons, ih]
    by_cases hused : used shader = true
    · rw [if_pos hused, List.filter_cons_of_pos hused, List.flatMap_cons, List.foldl_append,
        encodeShaderBindingsForStage_eq]
    · rw [if_neg hused, List.filter_cons_of_neg hused]

theorem encodeGraphicsBindings_eq (s : ArgumentCursor) (pipeline : PipelineState) :
    encodeGraphicsBindings s pipeline =
      (graphicsTables pipeline).foldl allocateArgumentBuffer s := by
  unfold encodeGraphicsBindings graphicsTables
  rw [List.foldl_append, ← encodeVertexBufferTable_eq]
  exact foldl_encode (fun shader => shader.stage = .vertex || shader.stage = .pixel) _ _

theorem foldl_encodeGraphicsBindings (commands : List PipelineState) (s : ArgumentCursor) :
    commands.foldl encodeGraphicsBindings s =
      (commands.flatMap graphicsTables).foldl allocateArgumentBuffer s := by
  induction commands generalizing s with
  | nil => rfl
  | cons pipeline commands ih =>
    rw [List.foldl_cons, ih, encodeGraphicsBindings_eq, List.flatMap_cons, List.foldl_append]

theorem encodeComputeBindings_eq (s : ArgumentCursor) (pipeline : PipelineState) :
    encodeComputeBindings s pipeline =
      ((computeShaders pipeline).flatMap shaderTables).foldl allocateArgumentBuffer s := by
  have h := foldl_encode (fun shader => shader.stage = .compute) pipeline.shaders s
  simp only [decide_eq_true_eq] at h
  exact h

/-! ## Words -/

/-- What a table of this size is handed out. -/
def handedOut (size : BitVec 64) : Nat :=
  max size.toNat 8

theorem align_ofNat (n : Nat) :
    (BitVec.ofNat 64 n + 31) &&& ~~~31 = BitVec.ofNat 64 (roundUp 32 n) := by
  have hadd : BitVec.ofNat 64 n + 31 = BitVec.ofNat 64 (n + 31) := (BitVec.ofNat_add n 31).symm
  rw [hadd]
  exact and_not_two_pow (n + 31) 5

theorem alignArgumentBufferSize_ofNat (n : Nat) :
    alignArgumentBufferSize (BitVec.ofNat 64 n) = BitVec.ofNat 64 (roundUp 32 n) :=
  align_ofNat n

theorem allocateArgumentBuffer_eq (s : ArgumentCursor) (size : BitVec 64) :
    (allocateArgumentBuffer s size).argbufOffset.toNat =
        (roundUp 32 s.argbufOffset.toNat % 2 ^ 64 + handedOut size) % 2 ^ 64 ∧
      (allocateArgumentBuffer s size).regions.map (fun region => (region.1.toNat, region.2.toNat)) =
        s.regions.map (fun region => (region.1.toNat, region.2.toNat)) ++
          [(roundUp 32 s.argbufOffset.toNat % 2 ^ 64, handedOut size)] := by
  have haligned : ((s.argbufOffset + 32 - 1) &&& ~~~(32 - 1)).toNat =
      roundUp 32 s.argbufOffset.toNat % 2 ^ 64 := by
    have hpred : s.argbufOffset + 32 - 1 = BitVec.ofNat 64 s.argbufOffset.toNat + 31 := by
      rw [BitVec.ofNat_toNat, BitVec.setWidth_eq]
      bv_omega
    rw [hpred]
    exact (congrArg BitVec.toNat (align_ofNat _)).trans (BitVec.toNat_ofNat ..)
  have hsize : (if size < 8 then (8 : BitVec 64) else size).toNat = handedOut size := by
    unfold handedOut
    split
    · next hlt => bv_omega
    · next hle => bv_omega
  simp only [allocateArgumentBuffer, BitVec.toNat_add, haligned, hsize, List.map_append,
    List.map_cons, List.map_nil, and_self]

/-- The regions are those of the bump allocator. -/
theorem regions_foldl (tables : List (BitVec 64)) (s : ArgumentCursor) :
    (tables.foldl allocateArgumentBuffer s).regions.map
    (fun region => (region.1.toNat, region.2.toNat)) =
      s.regions.map (fun region => (region.1.toNat, region.2.toNat)) ++
        BumpAllocator.run 32 (2 ^ 64) s.argbufOffset.toNat (tables.map handedOut) := by
  induction tables generalizing s with
  | nil => exact (List.append_nil _).symm
  | cons size tables ih =>
    obtain ⟨hoffset, hregions⟩ := allocateArgumentBuffer_eq s size
    rw [List.foldl_cons, ih, hoffset, hregions, List.append_assoc]
    rfl

/-! ## What is reserved -/

/-- The sizes that the estimate of a shader adds up. -/
def reservedShader (shader : PipelineDxilShader) : List Nat :=
  (if shader.reflection.numConstantBuffers ≠ 0 then
    [shader.reflection.numConstantBuffers.toNat * 8] else []) ++
  (if shader.reflection.numArguments ≠ 0 then
    [shader.reflection.argumentTableQwords.toNat * 8] else [])

/-- What the estimate reserves for the vertex buffers. -/
def reservedVertex (pipeline : PipelineState) : List Nat :=
  match pipeline.inputElements with
  | none => []
  | some inputs => if slotMask inputs = 0 then [] else [popcount (slotMask inputs) * 16]

/-- What the estimate reserves for a draw, table by table. -/
def reservedGraphics (pipeline : PipelineState) : List Nat :=
  reservedVertex pipeline ++ (graphicsShaders pipeline).flatMap reservedShader

theorem total_append (xs ys : List Nat) : total 32 (xs ++ ys) = total 32 xs + total 32 ys := by
  rw [total, List.map_append, List.sum_append]
  rfl

theorem total_singleton (n : Nat) : total 32 [n] = roundUp 32 n :=
  Nat.add_zero _

theorem shiftLeft_three (count : BitVec 32) :
    count.setWidth 64 <<< 3 = BitVec.ofNat 64 (count.toNat * 8) := by
  apply BitVec.eq_of_toNat_eq
  rw [BitVec.toNat_shiftLeft, BitVec.toNat_setWidth, BitVec.toNat_ofNat, Nat.shiftLeft_eq]
  omega

theorem align_zero : alignArgumentBufferSize 0 = 0 :=
  alignArgumentBufferSize_ofNat 0

theorem align_zero_add (size : BitVec 64) : alignArgumentBufferSize 0 + size = size := by
  rw [align_zero]
  exact BitVec.zero_add size

theorem estimateShader_eq (shader : PipelineDxilShader) :
    estimateShaderArgumentBufferSize shader =
      BitVec.ofNat 64 (total 32 (reservedShader shader)) := by
  unfold estimateShaderArgumentBufferSize reservedShader
  rw [total_append, shiftLeft_three, shiftLeft_three]
  dsimp only
  by_cases hbuffers : shader.reflection.numConstantBuffers ≠ 0
  · rw [if_pos hbuffers, if_pos hbuffers, align_zero_add, total_singleton]
    by_cases harguments : shader.reflection.numArguments ≠ 0
    · rw [if_pos harguments, if_pos harguments, total_singleton, alignArgumentBufferSize_ofNat,
        ← BitVec.ofNat_add, alignArgumentBufferSize_ofNat,
          roundUp_add (by decide) (dvd_roundUp 32 _)]
    · rw [if_neg harguments, if_neg harguments, alignArgumentBufferSize_ofNat]
      rfl
  · rw [if_neg hbuffers, if_neg hbuffers]
    by_cases harguments : shader.reflection.numArguments ≠ 0
    · rw [if_pos harguments, if_pos harguments, align_zero_add, total_singleton,
        alignArgumentBufferSize_ofNat]
      exact congrArg _ (Nat.zero_add _).symm
    · rw [if_neg harguments, if_neg harguments]
      exact align_zero

/-- The walk over the shaders of some stages adds what these reserve. -/
theorem align_foldl_estimate (used : PipelineDxilShader → Bool) (shaders : List PipelineDxilShader)
    (n : Nat) :
    alignArgumentBufferSize (shaders.foldl (fun size shader =>
        if used shader then alignArgumentBufferSize size + estimateShaderArgumentBufferSize shader
        else size)
        (BitVec.ofNat 64 n)) =
      BitVec.ofNat 64 (roundUp 32 n + total 32 ((shaders.filter used).flatMap reservedShader)) := by
  induction shaders generalizing n with
  | nil => exact alignArgumentBufferSize_ofNat n
  | cons shader shaders ih =>
    rw [List.foldl_cons]
    by_cases hused : used shader = true
    · rw [if_pos hused, alignArgumentBufferSize_ofNat, estimateShader_eq, ← BitVec.ofNat_add, ih,
        List.filter_cons_of_pos hused, List.flatMap_cons, total_append, ← Nat.add_assoc,
        roundUp_of_dvd (by decide) (Nat.dvd_add (dvd_roundUp 32 n) (dvd_total 32 _))]
    · rw [if_neg hused, ih, List.filter_cons_of_neg hused]

theorem estimateGraphics_eq (pipeline : PipelineState) :
    estimateGraphicsArgumentBufferSize pipeline =
      BitVec.ofNat 64 (total 32 (reservedGraphics pipeline)) := by
  have hstart : (match pipeline.inputElements with
      | none => 0
      | some inputs =>
        if slotMask inputs = 0 then 0
        else alignArgumentBufferSize 0 + BitVec.ofNat 64 (popcount (slotMask inputs)) * 16) =
      BitVec.ofNat 64 (reservedVertex pipeline).sum := by
    unfold reservedVertex
    split
    · rfl
    · split
      · rfl
      · rw [align_zero_add, List.sum_singleton, BitVec.ofNat_mul]
        rfl
  have htotal : roundUp 32 (reservedVertex pipeline).sum = total 32 (reservedVertex pipeline) := by
    unfold reservedVertex
    split
    · rfl
    · split
      · rfl
      · rw [List.sum_singleton, total_singleton]
  unfold estimateGraphicsArgumentBufferSize
  dsimp only
  rw [hstart, reservedGraphics, total_append, ← htotal]
  exact align_foldl_estimate (fun shader => shader.stage = .vertex || shader.stage = .pixel) _ _

theorem estimateCompute_eq (pipeline : PipelineState) :
    estimateComputeArgumentBufferSize pipeline =
      BitVec.ofNat 64 (total 32 ((computeShaders pipeline).flatMap reservedShader)) := by
  have h := align_foldl_estimate (fun shader => shader.stage = .compute) pipeline.shaders 0
  simp only [decide_eq_true_eq] at h
  rw [show roundUp 32 0 = 0 from rfl, Nat.zero_add] at h
  exact h

/-! ## Passes of a run -/

namespace Pass

/-- The shaders whose bindings are encoded. -/
def shaders (begins : Attachments → Bool) : Pass Attachments → List PipelineDxilShader
  | render attachments _ commands => if begins attachments then commands.flatMap graphicsShaders
  else []
  | compute _ pipeline => computeShaders pipeline

/-- The tables that are encoded. -/
def tables (begins : Attachments → Bool) : Pass Attachments → List (BitVec 64)
  | render attachments _ commands => if begins attachments then commands.flatMap graphicsTables
  else []
  | compute _ pipeline => (computeShaders pipeline).flatMap shaderTables

/-- The sizes that the estimates of the pass add up. -/
def reserved : Pass Attachments → List Nat
  | render _ _ commands => commands.flatMap reservedGraphics
  | compute _ pipeline => (computeShaders pipeline).flatMap reservedShader

/-- The pass reserves the sum of its estimates. -/
def Estimated (pass : Pass Attachments) : Prop :=
  pass.argumentBufferSize = BitVec.ofNat 64 (total 32 pass.reserved)

theorem regions_eq (begins : Attachments → Bool) (pass : Pass Attachments) :
    (pass.regions begins).map (fun region => (region.1.toNat, region.2.toNat)) =
      BumpAllocator.run 32 (2 ^ 64) 0 ((pass.tables begins).map handedOut) := by
  cases pass with
  | render attachments size commands =>
    simp only [regions, tables]
    split
    · rw [foldl_encodeGraphicsBindings]
      exact regions_foldl _ {}
    · rfl
  | compute size pipeline =>
    simp only [regions, tables, encodeComputeBindings_eq]
    exact regions_foldl _ {}

/-- A pass is covered exactly when its tables, rounded up, fit in what it reserves. -/
theorem covered_iff (begins : Attachments → Bool) {pass : Pass Attachments} (h : pass.Estimated) :
    pass.Covered begins ↔
      total 32 ((pass.tables begins).map handedOut) ≤ total 32 pass.reserved % 2 ^ 64 := by
  have hbound : pass.argumentBufferSize.toNat = total 32 pass.reserved % 2 ^ 64 := by
    rw [h, BitVec.toNat_ofNat]
  have hdvd : 32 ∣ total 32 pass.reserved % 2 ^ 64 :=
    (Nat.dvd_mod_iff (by decide)).mpr (dvd_total 32 pass.reserved)
  have hlt : total 32 pass.reserved % 2 ^ 64 < 2 ^ 64 := Nat.mod_lt _ (by decide)
  have hregions := pass.regions_eq begins
  have hfits := fits_iff (by decide) hdvd hlt ((pass.tables begins).map handedOut) 0 (Nat.zero_le _)
  rw [← hregions, show roundUp 32 0 = 0 from rfl, Nat.zero_add, List.forall_mem_map] at hfits
  rw [← hfits]
  refine ⟨fun hcovered region hregion => hbound ▸ hcovered.within region hregion, fun hwithin => ?_⟩
  have htotal : roundUp 32 0 + total 32 ((pass.tables begins).map handedOut) ≤
      total 32 pass.reserved % 2 ^ 64 := (Nat.zero_add _).trans_le (hfits.mp hwithin)
  have hpairwise := pairwise_run (by decide) hlt _ 0 htotal
  rw [← hregions, List.pairwise_map] at hpairwise
  refine ⟨fun region hregion => ?_, hpairwise.imp .inl, fun region hregion =>
      hbound ▸ hwithin region hregion⟩
  have hmem : (region.1.toNat, region.2.toNat) ∈
      BumpAllocator.run 32 (2 ^ 64) 0 ((pass.tables begins).map handedOut) :=
    hregions ▸ List.mem_map_of_mem hregion
  exact dvd_of_mem_run (by decide) hmem

end Pass

/-- What a run keeps: the batch, and every pass, has reserved the sum of the estimates. -/
structure Inv (s : ReplayState Attachments) : Prop where
  batch : ∀ batch, s.batch = some batch →
    batch.argumentBufferSize = BitVec.ofNat 64 (total 32 (batch.commands.flatMap reservedGraphics))
  passes : ∀ pass ∈ s.passes, pass.Estimated

theorem Inv.emit {s : ReplayState Attachments} (h : Inv s) {pass : Pass Attachments}
    (hpass : pass.Estimated) {batch : Option (GraphicsPassBatch Attachments)}
    (hbatch : batch = none ∨ batch = s.batch) :
    Inv { batch, passes := s.passes ++ [pass] } where
  batch b hb := by
    rcases hbatch with rfl | rfl
    · cases hb
    · exact h.batch b hb
  passes p hp := by
    rcases List.mem_append.mp hp with hp | hp
    · exact h.passes p hp
    · exact List.mem_singleton.mp hp ▸ hpass

theorem Inv.flush {s : ReplayState Attachments} (h : Inv s) : Inv (flushGraphicsPassBatch s) := by
  unfold flushGraphicsPassBatch
  split
  · exact h
  · next batch hbatch =>
    split
    · exact h
    · have hpass : (Pass.render batch.attachments batch.argumentBufferSize
          batch.commands).Estimated :=
        h.batch batch hbatch
      exact h.emit hpass (.inl rfl)

theorem Inv.queue {s : ReplayState Attachments} (h : Inv s)
    (same : Attachments → Attachments → Bool) (attachments : Attachments)
    (pipeline : PipelineState) :
    Inv (queueGraphicsPassCommand same s attachments (estimateGraphicsArgumentBufferSize pipeline)
      pipeline) := by
  have hstart : ∀ t : ReplayState Attachments, Inv t → Inv { t with
      batch := some { t.batch.getD ⟨attachments, [], 0⟩ with
        argumentBufferSize := (t.batch.getD ⟨attachments, [], 0⟩).argumentBufferSize +
          estimateGraphicsArgumentBufferSize pipeline
        commands := (t.batch.getD ⟨attachments, [], 0⟩).commands ++ [pipeline] } } := by
    intro t ht
    refine ⟨fun batch hbatch => ?_, ht.passes⟩
    have hold : (t.batch.getD ⟨attachments, [], 0⟩).argumentBufferSize =
        BitVec.ofNat 64
          (total 32 ((t.batch.getD ⟨attachments, [], 0⟩).commands.flatMap reservedGraphics)) := by
      cases hb : t.batch with
      | none => rfl
      | some b => exact ht.batch b hb
    cases hbatch
    rw [hold, estimateGraphics_eq, ← BitVec.ofNat_add, List.flatMap_append, total_append,
      List.flatMap_singleton]
  unfold queueGraphicsPassCommand
  refine hstart _ ?_
  split
  · split
    · exact h.flush
    · exact h
  · exact h

theorem Inv.step {s : ReplayState Attachments} (h : Inv s) (same : Attachments → Attachments → Bool)
    (call : Call Attachments) : Inv (step same s call) := by
  cases call with
  | queueDraw attachments pipeline => exact h.queue same attachments pipeline
  | emitDraw attachments pipeline =>
    refine h.flush.emit ?_ (.inr rfl)
    rw [Pass.Estimated, Pass.argumentBufferSize, estimateGraphics_eq, Pass.reserved,
      List.flatMap_singleton]
  | dispatch pipeline =>
    refine h.emit ?_ (.inr rfl)
    exact estimateCompute_eq pipeline
  | flush => exact h.flush

theorem inv_run (same : Attachments → Attachments → Bool) (calls : List (Call Attachments)) :
    Inv (run same calls) := by
  have hrun : ∀ s : ReplayState Attachments, Inv s → Inv (calls.foldl (step same) s) := by
    intro s hs
    induction calls generalizing s with
    | nil => exact hs
    | cons call calls ih => exact ih _ (hs.step same call)
  exact hrun {} ⟨nofun, nofun⟩

/-! ## Shaders that fit -/

/-- The counts of the shader fit 32 bits as bytes, and so does the number of its arguments. -/
structure PipelineDxilShader.Plain (shader : PipelineDxilShader) : Prop where
  buffers : shader.reflection.numConstantBuffers.toNat < 2 ^ 29
  qwords : shader.reflection.argumentTableQwords.toNat < 2 ^ 29
  arguments : shader.reflection.numConstantBuffers.toNat + shader.reflection.numArguments.toNat <
  2 ^ 32

/-- The shader has arguments, and its argument table is empty. -/
def PipelineDxilShader.EmptyTable (shader : PipelineDxilShader) : Prop :=
  shader.reflection.numArguments ≠ 0 ∧ shader.reflection.argumentTableQwords = 0

theorem shiftLeft_toNat {count : BitVec 32} (h : count.toNat < 2 ^ 29) :
    ((count <<< 3).setWidth 64).toNat = count.toNat * 8 := by
  rw [BitVec.toNat_setWidth, BitVec.toNat_shiftLeft, Nat.shiftLeft_eq]
  omega

theorem PipelineDxilShader.Plain.tables {shader : PipelineDxilShader} (h : shader.Plain) :
    (shaderTables shader).map BitVec.toNat = reservedShader shader := by
  have hinfo := shader.resized
  rw [BitVec.toNat_add, Nat.mod_eq_of_lt h.arguments] at hinfo
  have hbuffers : shader.reflection.numConstantBuffers ≠ 0 →
      shader.hasConstantBufferInfo = true := by
    intro hne
    have hpos : shader.reflection.numConstantBuffers.toNat ≠ 0 :=
      fun hzero => hne (BitVec.eq_of_toNat_eq hzero)
    simp only [hasConstantBufferInfo, decide_eq_true_eq]
    omega
  have harguments : shader.reflection.numArguments ≠ 0 → shader.hasResourceArgumentInfo = true := by
    intro hne
    have hpos : shader.reflection.numArguments.toNat ≠ 0 :=
      fun hzero => hne (BitVec.eq_of_toNat_eq hzero)
    simp only [hasResourceArgumentInfo, decide_eq_true_eq]
    omega
  unfold shaderTables reservedShader
  rw [List.map_append]
  congr 1
  · by_cases hne : shader.reflection.numConstantBuffers ≠ 0
    · have htable : (shader.reflection.numConstantBuffers ≠ 0 &&
          shader.hasConstantBufferInfo) = true := by
        rw [hbuffers hne, Bool.and_true]
        exact decide_eq_true hne
      rw [if_pos htable, if_pos hne, List.map_singleton, shiftLeft_toNat h.buffers]
    · rw [if_neg (by simp [not_not.mp hne]), if_neg hne]
      rfl
  · by_cases hne : shader.reflection.numArguments ≠ 0
    · have htable : (shader.reflection.numArguments ≠ 0 &&
          shader.hasResourceArgumentInfo) = true := by
        rw [harguments hne, Bool.and_true]
        exact decide_eq_true hne
      rw [if_pos htable, if_pos hne, List.map_singleton, shiftLeft_toNat h.qwords]
    · rw [if_neg (by simp [not_not.mp hne]), if_neg hne]
      rfl

theorem zero_mem_reservedShader (shader : PipelineDxilShader) :
    0 ∈ reservedShader shader ↔ shader.EmptyTable := by
  have hzero (count : BitVec 32) : 0 = count.toNat * 8 ↔ count = 0 := by
    refine ⟨fun h => BitVec.eq_of_toNat_eq ?_, fun h => by rw [h]; rfl⟩
    show count.toNat = 0
    omega
  unfold reservedShader PipelineDxilShader.EmptyTable
  rw [List.mem_append]
  constructor
  · rintro (h | h)
    · split at h
      · next hne => exact absurd ((hzero _).mp (List.mem_singleton.mp h)) hne
      · cases h
    · split at h
      · next hne => exact ⟨hne, (hzero _).mp (List.mem_singleton.mp h)⟩
      · cases h
  · rintro ⟨hne, hqwords⟩
    rw [if_pos hne]
    exact .inr (List.mem_singleton.mpr ((hzero _).mpr hqwords))

theorem popcount_le (mask : BitVec 32) : popcount mask ≤ 32 :=
  List.countP_le_length.trans_eq (List.length_range)

theorem popcount_pos {mask : BitVec 32} (h : mask ≠ 0) : 0 < popcount mask := by
  by_contra hnone
  refine h (BitVec.eq_of_getLsbD_eq fun i hi => ?_)
  have hbit := List.countP_eq_zero.mp (Nat.eq_zero_of_not_pos hnone) i (List.mem_range.mpr hi)
  exact (Bool.eq_false_iff.mpr hbit).trans BitVec.getLsbD_zero.symm

theorem vertexTables_map (pipeline : PipelineState) :
    (vertexTables pipeline).map BitVec.toNat = reservedVertex pipeline := by
  unfold vertexTables reservedVertex
  split
  · rfl
  · next inputs _ =>
    have hle := popcount_le (slotMask inputs)
    split
    · rfl
    · rw [List.map_singleton, BitVec.toNat_mul, BitVec.toNat_ofNat]
      congr 1
      show popcount (slotMask inputs) % 2 ^ 64 * 16 % 2 ^ 64 = popcount (slotMask inputs) * 16
      omega

theorem zero_notMem_reservedVertex (pipeline : PipelineState) : 0 ∉ reservedVertex pipeline := by
  unfold reservedVertex
  split
  · exact List.not_mem_nil
  · next inputs _ =>
    split
    · exact List.not_mem_nil
    · next hne =>
      have hpos := popcount_pos hne
      rw [List.mem_singleton]
      omega

/-- Sizes of at least 8 are no more than the sizes themselves, rounded up, exactly when none is
zero. -/
theorem total_handedOut_le_iff (sizes : List Nat) :
    total 32 (sizes.map (max · 8)) ≤ total 32 sizes ↔ 0 ∉ sizes := by
  have hone : ∀ n, roundUp 32 n ≤ roundUp 32 (max n 8) ∧
      (roundUp 32 (max n 8) ≤ roundUp 32 n ↔ n ≠ 0) := by
    intro n
    unfold roundUp
    omega
  have hge : ∀ sizes : List Nat, total 32 sizes ≤ total 32 (sizes.map (max · 8)) := by
    intro sizes
    induction sizes with
    | nil => exact Nat.le_refl _
    | cons n sizes ih => exact Nat.add_le_add (hone n).1 ih
  induction sizes with
  | nil => exact iff_of_true (Nat.le_refl _) List.not_mem_nil
  | cons n sizes ih =>
    have hn := hone n
    have hrest := hge sizes
    have hmem : 0 ∉ n :: sizes ↔ n ≠ 0 ∧ 0 ∉ sizes := by rw [List.mem_cons, not_or, ne_comm]
    refine Iff.trans ?_ ((and_congr hn.2 ih).trans hmem.symm)
    simp only [total, List.map_cons, List.sum_cons] at hrest ⊢
    omega

/-- Pipelines whose shaders fit encode tables of the sizes that are reserved. -/
theorem flatMap_tables {shaders : List PipelineDxilShader} (h : ∀ shader ∈ shaders, shader.Plain) :
    (shaders.flatMap shaderTables).map BitVec.toNat = shaders.flatMap reservedShader := by
  rw [List.map_flatMap]
  exact List.flatMap_congr fun shader hshader => (h shader hshader).tables

theorem graphicsTables_map {commands : List PipelineState}
    (h : ∀ shader ∈ commands.flatMap graphicsShaders, shader.Plain) :
    (commands.flatMap graphicsTables).map BitVec.toNat = commands.flatMap reservedGraphics := by
  rw [List.map_flatMap]
  refine List.flatMap_congr fun pipeline hpipeline => ?_
  rw [graphicsTables, reservedGraphics, List.map_append, vertexTables_map, flatMap_tables]
  exact fun shader hshader => h shader (List.mem_flatMap.mpr ⟨pipeline, hpipeline, hshader⟩)

theorem zero_mem_flatMap (shaders : List PipelineDxilShader) :
    0 ∈ shaders.flatMap reservedShader ↔ ∃ shader ∈ shaders, shader.EmptyTable := by
  simp only [List.mem_flatMap, zero_mem_reservedShader]

namespace Pass

/-- The tables of a pass whose shaders fit are covered exactly where none of them is empty. -/
theorem covered_plain (begins : Attachments → Bool) {pass : Pass Attachments} (h : pass.Estimated)
    (hplain : ∀ shader ∈ pass.shaders begins, shader.Plain)
    (hlt : total 32 pass.reserved < 2 ^ 64) :
    pass.Covered begins ↔ ∀ shader ∈ pass.shaders begins, ¬shader.EmptyTable := by
  rw [covered_iff begins h, Nat.mod_eq_of_lt hlt]
  have hsizes : (pass.tables begins).map handedOut =
      ((pass.tables begins).map BitVec.toNat).map (max · 8) := by
    rw [List.map_map]
    rfl
  rw [hsizes]
  cases pass with
  | render attachments size commands =>
    simp only [tables, shaders, reserved] at hplain ⊢
    split
    · next hbegins =>
      rw [if_pos hbegins] at hplain
      have hvertex : ∀ pipeline ∈ commands, 0 ∈ reservedGraphics pipeline ↔
          ∃ shader ∈ graphicsShaders pipeline, shader.EmptyTable := fun pipeline _ => by
        rw [reservedGraphics, List.mem_append, zero_mem_flatMap]
        exact or_iff_right (zero_notMem_reservedVertex pipeline)
      rw [graphicsTables_map hplain, total_handedOut_le_iff, List.mem_flatMap]
      simp only [List.mem_flatMap, forall_exists_index, and_imp, not_exists, not_and]
      refine ⟨fun hnone shader pipeline hpipeline hshader hempty => ?_,
        fun hnone pipeline hpipeline hzero => ?_⟩
      · exact hnone pipeline hpipeline ((hvertex pipeline hpipeline).mpr ⟨shader, hshader, hempty⟩)
      · obtain ⟨shader, hshader, hempty⟩ := (hvertex pipeline hpipeline).mp hzero
        exact hnone shader pipeline hpipeline hshader hempty
    · exact iff_of_true (Nat.zero_le _) nofun
  | compute size pipeline =>
    simp only [tables, shaders, reserved] at hplain ⊢
    rw [flatMap_tables hplain, total_handedOut_le_iff, zero_mem_flatMap]
    push Not
    rfl

end Pass

/-- **The estimates cover what is encoded** exactly where the tables of a pass, each of at least 8
bytes and rounded up to 32, are no more than the 64-bit sum of its estimates. Where the counts fit,
that is when no shader that is encoded has arguments and an empty table. -/
theorem estimates_cover_iff (same : Attachments → Attachments → Bool) (begins : Attachments → Bool)
    (calls : List (Call Attachments)) :
    ∀ pass ∈ (run same calls).passes, pass.Estimated ∧
      (pass.Covered begins ↔
        total 32 ((pass.tables begins).map handedOut) ≤ total 32 pass.reserved % 2 ^ 64) ∧
      ((∀ shader ∈ pass.shaders begins, shader.Plain) → total 32 pass.reserved < 2 ^ 64 →
        (pass.Covered begins ↔ ∀ shader ∈ pass.shaders begins, ¬shader.EmptyTable)) := by
  intro pass hpass
  have hestimated := (inv_run same calls).passes pass hpass
  exact ⟨hestimated, Pass.covered_iff begins hestimated, Pass.covered_plain begins hestimated⟩

/-- A compute shader with one argument, and an argument table of `qwords`. -/
def oneArgument (qwords : BitVec 32) : PipelineState where
  inputElements := none
  shaders := [{
    stage := .compute
    reflection := ⟨0, 1, qwords⟩
    argumentInfo := 1
    resized := rfl }]

/-- The region of a table of one entry is covered. -/
theorem estimates_cover_iff_oneArgument :
    (Pass.compute (estimateComputeArgumentBufferSize (oneArgument 1)) (oneArgument 1)).Covered
      fun _ : Unit => true := by
  have hpass :=
    estimates_cover_iff (fun _ _ => true) (fun _ : Unit => true) [.dispatch (oneArgument 1)] _
    (.head _)
  exact hpass.2.1.mpr (by decide)

/-- The region of an empty table is handed out at zero, where nothing is reserved. -/
theorem emptyTable_outside :
    (run (fun _ _ : Unit => true) [.dispatch (oneArgument 0)]).passes =
    [.compute 0 (oneArgument 0)] ∧
      (Pass.compute 0 (oneArgument 0)).regions (fun _ : Unit => true) = [(0, 8)] ∧
      ¬(Pass.compute 0 (oneArgument 0)).Covered fun _ : Unit => true := by
  have hregions : (Pass.compute 0 (oneArgument 0)).regions (fun _ : Unit => true) = [(0, 8)] :=
    by decide
  refine ⟨rfl, hregions, fun h => ?_⟩
  have hwithin := h.within (0, 8) (hregions ▸ List.mem_singleton_self _)
  exact absurd hwithin (by decide)

end ArgumentBuffer

end Dxmt
