import Dxmt.DxilSlots

/-!
# Arguments of a DXBC shader: `SM50Initialize`

`SM50Initialize` goes through the maps of the shader's resources, class by class, and defines their
fields. `RebuildArgumentBindingTables` does the same again when a pixel shader is compiled with
multisampled textures that are demoted. A map is the list of its entries in the order of the
numbers.

Source: `src/airconv/dxbc_converter.cpp:28-157, 228-265, 1285-1570`.
-/

namespace Dxmt

namespace ArgumentTable

open FrontEnds FirstFree ArgumentBufferBuilder

/-- The declared ranges of a DXBC shader, by class. -/
structure DxbcShaderInfo where
  cbufferMap : List RangeInfo
  samplerMap : List RangeInfo
  srvMap : List RangeInfo
  uavMap : List RangeInfo
  bindingTable : ArgumentBufferBuilder := []
  bindingTableCbuffer : ArgumentBufferBuilder := []

/-! ## Fields -/

/-- The field of a constant buffer. -/
def defineCbv (fields : ArgumentBufferBuilder) (cbv : RangeInfo) :
    ArgumentBufferBuilder × RangeInfo :=
  let (fields, argIndex) := defineBuffer fields ⟨.cbv, cbv.range.rangeId, .resource⟩
    (getArgumentIndex .cbv cbv.range.bindingSlot)
  (fields, { cbv with argIndex })

/-- The three fields of a sampler. -/
def defineSamplerFields (fields : ArgumentBufferBuilder) (sampler : RangeInfo) :
    ArgumentBufferBuilder × RangeInfo :=
  let attr := getArgumentIndex .sampler sampler.range.bindingSlot
  let id := sampler.range.rangeId
  let (fields, argIndex) := defineSampler fields ⟨.sampler, id, .resource⟩ attr
  let (fields, argCubeIndex) := defineSampler fields ⟨.sampler, id, .cube⟩ (attr + 1)
  let (fields, argMetadataIndex) := defineInteger64 fields ⟨.sampler, id, .metadata⟩ (attr + 2)
  (fields, { sampler with argIndex, argCubeIndex, argMetadataIndex })

/-- The first field of an SRV or UAV: a typed buffer is a texture here. -/
def defineView (fields : ArgumentBufferBuilder) (key : ResourceKey) (info : RangeInfo)
    (attr : Nat) :
    ArgumentBufferBuilder × Nat :=
  if info.resourceType ≠ .nonApplicable then defineTexture fields ⟨key.resourceClass, key.id,
      .resource⟩ attr
  else defineBuffer fields ⟨key.resourceClass, key.id, .resource⟩ attr

/-- The fields of a shader resource. -/
def defineSrv (fields : ArgumentBufferBuilder) (srv : RangeInfo) :
    ArgumentBufferBuilder × RangeInfo :=
  let attr := getArgumentIndex .srv srv.range.bindingSlot
  let id := srv.range.rangeId
  let (fields, argIndex) := defineView fields ⟨.srv, id⟩ srv attr
  let (fields, argMetadataIndex) := defineInteger64 fields ⟨.srv, id, .metadata⟩ (attr + 1)
  (fields, { srv with argIndex, argMetadataIndex })

/-- The fields of an unordered access view. -/
def defineUav (fields : ArgumentBufferBuilder) (uav : RangeInfo) :
    ArgumentBufferBuilder × RangeInfo :=
  let attr := getArgumentIndex .uav uav.range.bindingSlot
  let id := uav.range.rangeId
  let (fields, argIndex) := defineView fields ⟨.uav, id⟩ uav attr
  let (fields, argMetadataIndex) := defineInteger64 fields ⟨.uav, id, .metadata⟩ (attr + 1)
  if uav.withCounter then
    let (fields, argCounterIndex) := defineBuffer fields ⟨.uav, id, .counter⟩ (attr + 2)
    (fields, { uav with argIndex, argMetadataIndex, argCounterIndex })
  else (fields, { uav with argIndex, argMetadataIndex })

/-- One of the loops: every entry of the map gets its fields. -/
def forEach (define : ArgumentBufferBuilder → RangeInfo → ArgumentBufferBuilder × RangeInfo)
    (fields : ArgumentBufferBuilder) : List RangeInfo → ArgumentBufferBuilder × List RangeInfo
  | [] => (fields, [])
  | info :: infos =>
    let step := define fields info
    let rest := forEach define step.1 infos
    (rest.1, step.2 :: rest.2)

/-- `RebuildArgumentBindingTables`, and what `SM50Initialize` does to the tables. -/
def rebuildArgumentBindingTables (info : DxbcShaderInfo) : DxbcShaderInfo :=
  let cbuffers := forEach defineCbv [] info.cbufferMap
  let samplers := forEach defineSamplerFields [] info.samplerMap
  let srvs := forEach defineSrv samplers.1 info.srvMap
  let uavs := forEach defineUav srvs.1 info.uavMap
  ⟨cbuffers.2, samplers.2, srvs.2, uavs.2, uavs.1, cbuffers.1⟩

/-! ## Arguments -/

/-- The flags of an SRV or UAV that say what it is. -/
def RangeInfo.kindFlags (info : RangeInfo) : ArgumentFlags :=
  match info.resourceType with
  | .nonApplicable => { elementWidth := true, buffer := true }
  | .textureBuffer => { tbufferOffset := true, texture := true }
  | type =>
    { textureMinlodClamp := true
      texture := true
      textureMultisampled := type = .texture2DMultisampled || type = .texture2DMultisampledArray
      texture3D := type = .texture3D
      textureCube := type = .textureCube || type = .textureCubeArray
      textureUint := info.scalerType = .uint
      textureSint := info.scalerType = .int
      textureDepth := info.compared
      textureArray := type = .texture1DArray || type = .texture2DArray ||
        type = .texture2DMultisampledArray || type = .textureCubeArray }

/-- The flags of a shader resource's argument. -/
def srvFlags (srv : RangeInfo) : ArgumentFlags :=
  { srv.kindFlags with readAccess := srv.read || srv.sampled || srv.compared }

/-- A UAV is not compared. -/
def uavFlags (uav : RangeInfo) : ArgumentFlags :=
  { uav.kindFlags with
    textureDepth := false, readAccess := uav.read, writeAccess := uav.written, uavCounter :=
        uav.withCounter }

/-- The argument that the reflection lists for a range. -/
def RangeInfo.argument (type : FrontEnds.DxilTranslationResourceClass) (flags : ArgumentFlags)
    (info : RangeInfo) :
    Argument where
  type
  bindingSlot := info.range.bindingSlot
  flags
  structurePtrOffset := info.argIndex
  registerSpace := info.range.space
  registerLowerBound := info.range.lowerBound
  registerCount := if info.range.size = 0 then 1 else info.range.size
  cbufferSizeInVec4 := info.sizeInVec4

/-- The argument of a constant buffer. -/
def cbvArgument (cbv : RangeInfo) : ResourceKey × Argument :=
  (⟨.cbv, cbv.range.rangeId⟩, cbv.argument .cbv { buffer := true, readAccess := true })

/-- The argument of a sampler. -/
def samplerArgument (sampler : RangeInfo) : ResourceKey × Argument :=
  (⟨.sampler, sampler.range.rangeId⟩, sampler.argument .sampler {})

/-- The argument of a shader resource. -/
def srvArgument (srv : RangeInfo) : ResourceKey × Argument :=
  (⟨.srv, srv.range.rangeId⟩, srv.argument .srv (srvFlags srv))

/-- The argument of an unordered access view. -/
def uavArgument (uav : RangeInfo) : ResourceKey × Argument :=
  (⟨.uav, uav.range.rangeId⟩, uav.argument .uav (uavFlags uav))

/-! ## Compilation -/

/-- The type of a texture without its samples. -/
def demoted : ResourceType → ResourceType
  | .texture2DMultisampled => .texture2D
  | .texture2DMultisampledArray => .texture2DArray
  | type => type

/-- `DemoteSingleSampleMsaaSrv`. -/
def demoteSingleSampleMsaaSrv (info : DxbcShaderInfo) (slot : Nat) : DxbcShaderInfo :=
  { info with
    srvMap := info.srvMap.map fun srv =>
      if srv.range.rangeId = slot then { srv with resourceType := demoted srv.resourceType }
      else srv }

/-- `DemoteSingleSampleMsaaSrvs`. -/
def demoteSingleSampleMsaaSrvs (info : DxbcShaderInfo) (maskLo maskHi : Nat) : DxbcShaderInfo :=
  (List.range 64).foldl (fun info slot =>
    let info := if maskLo.testBit slot then demoteSingleSampleMsaaSrv info slot else info
    if maskHi.testBit slot then demoteSingleSampleMsaaSrv info (slot + 64) else info) info

/-- The tables of the compiled shader: those made at its initialisation, unless textures are
demoted. -/
def compiledShaderInfo (info : DxbcShaderInfo) (maskLo maskHi : Nat) : DxbcShaderInfo :=
  if maskLo ≠ 0 ∨ maskHi ≠ 0 then
      rebuildArgumentBindingTables (demoteSingleSampleMsaaSrvs info maskLo maskHi)
  else info

/-- The constant buffers of a shader with the maps of `info`, and `NumConstantBuffers`. -/
def dxbcConstantBuffers (info : DxbcShaderInfo) (maskLo maskHi : Nat) : Layout :=
  let initialized := rebuildArgumentBindingTables info
  { fields := (compiledShaderInfo initialized maskLo maskHi).bindingTableCbuffer
    arguments := initialized.cbufferMap.map cbvArgument
    qwords := initialized.cbufferMap.length }

/-- The other resources, and `ArgumentTableQwords`. -/
def dxbcResources (info : DxbcShaderInfo) (maskLo maskHi : Nat) : Layout :=
  let initialized := rebuildArgumentBindingTables info
  { fields := (compiledShaderInfo initialized maskLo maskHi).bindingTable
    arguments := initialized.samplerMap.map samplerArgument ++ initialized.srvMap.map srvArgument ++
      initialized.uavMap.map uavArgument
    qwords := initialized.bindingTable.length }

/-! ## The loops -/

/-- The fields that stand for a constant buffer. -/
def RangeInfo.cbvFields (info : RangeInfo) : List Field :=
  cbvBlock info.range.rangeId (getArgumentIndex .cbv info.range.bindingSlot)

/-- The fields that stand for a sampler. -/
def RangeInfo.samplerFields (info : RangeInfo) : List Field :=
  samplerBlock info.range.rangeId (getArgumentIndex .sampler info.range.bindingSlot)

/-- The type of the first field of an SRV or UAV. -/
def RangeInfo.viewType (info : RangeInfo) : FieldType :=
  if info.resourceType ≠ .nonApplicable then .texture else .buffer

/-- The fields that stand for a shader resource. -/
def RangeInfo.srvFields (info : RangeInfo) : List Field :=
  viewBlock ⟨.srv, info.range.rangeId⟩ info.viewType false
    (getArgumentIndex .srv info.range.bindingSlot)

/-- The fields that stand for an unordered access view. -/
def RangeInfo.uavFields (info : RangeInfo) : List Field :=
  viewBlock ⟨.uav, info.range.rangeId⟩ info.viewType info.withCounter
    (getArgumentIndex .uav info.range.bindingSlot)

/-- The loop's body appends the fields of an entry, notes where they begin and keeps what they
depend on. -/
structure Defines (define : ArgumentBufferBuilder → RangeInfo → ArgumentBufferBuilder × RangeInfo)
    (block : RangeInfo → List Field) : Prop where
  fields : ∀ fields info, (define fields info).1 = fields ++ block info
  argIndex : ∀ fields info, (define fields info).2.argIndex = fields.length
  block : ∀ fields info, block (define fields info).2 = block info

theorem defineView_eq (fields : ArgumentBufferBuilder) (key : ResourceKey) (info : RangeInfo)
    (attr : Nat) :
    defineView fields key info attr =
      (fields ++ [⟨info.viewType, ⟨key.resourceClass, key.id, .resource⟩, attr⟩],
        fields.length) := by
  unfold defineView RangeInfo.viewType
  split <;> rfl

theorem defines_cbv : Defines defineCbv RangeInfo.cbvFields := ⟨fun _ _ => rfl, fun _ _ => rfl,
    fun _ _ => rfl⟩

theorem defines_sampler : Defines defineSamplerFields RangeInfo.samplerFields where
  fields fields info := by simp [defineSamplerFields, RangeInfo.samplerFields, samplerBlock]
  argIndex fields info := rfl
  block fields info := rfl

theorem defines_srv : Defines defineSrv RangeInfo.srvFields where
  fields fields info := by simp [defineSrv, defineView_eq, RangeInfo.srvFields, viewBlock]
  argIndex fields info := by simp [defineSrv, defineView_eq]
  block fields info := rfl

theorem defines_uav : Defines defineUav RangeInfo.uavFields where
  fields fields info := by
    cases h : info.withCounter <;> simp [defineUav, defineView_eq, RangeInfo.uavFields, viewBlock,
        h]
  argIndex fields info := by
    cases h : info.withCounter <;> simp [defineUav, defineView_eq, h]
  block fields info := by
    cases h : info.withCounter <;> simp [defineUav, RangeInfo.uavFields, RangeInfo.viewType, h]

section Loops

variable {define : ArgumentBufferBuilder → RangeInfo → ArgumentBufferBuilder × RangeInfo}
  {block : RangeInfo → List Field} {argument : RangeInfo → ResourceKey × Argument}
  {fields : ArgumentBufferBuilder} {infos : List RangeInfo}

theorem forEach_fields (h : Defines define block) :
    (forEach define fields infos).1 = fields ++ infos.flatMap block := by
  induction infos generalizing fields with
  | nil => simp [forEach]
  | cons info infos ih => simp [forEach, ih, h.fields]

theorem forEach_flatMap (h : Defines define block) :
    (forEach define fields infos).2.flatMap block = infos.flatMap block := by
  induction infos generalizing fields with
  | nil => rfl
  | cons info infos ih => simp [forEach, ih, h.block]

/-- The arguments of the entries, each with its fields. -/
def entryItems (argument : RangeInfo → ResourceKey × Argument) (block : RangeInfo → List Field)
    (infos : List RangeInfo) : List Item :=
  infos.map fun info => ⟨(argument info).1, (argument info).2, block info⟩

theorem blocks_entryItems : blocks (entryItems argument block infos) = infos.flatMap block := by
  simp [blocks, entryItems, List.flatMap_map]

theorem forEach_placed (fields : ArgumentBufferBuilder) (infos : List RangeInfo)
    (h : Defines define block)
    (hoffset : ∀ info, (argument info).2.structurePtrOffset = info.argIndex) :
    Placed fields.length (entryItems argument block (forEach define fields infos).2) := by
  induction infos generalizing fields with
  | nil => trivial
  | cons info infos ih =>
    have hrest := ih (define fields info).1
    have hlength : (define fields info).1.length = fields.length +
        (block (define fields info).2).length := by
      rw [h.fields, h.block, List.length_append]
    rw [hlength] at hrest
    exact ⟨(hoffset _).trans (h.argIndex _ _), hrest⟩

/-- Where the fields end after the loop. -/
theorem length_forEach (argument : RangeInfo → ResourceKey × Argument) (h : Defines define block) :
    (forEach define fields infos).1.length =
      fields.length + (blocks (entryItems argument block
        (forEach define fields infos).2)).length := by
  rw [forEach_fields h, blocks_entryItems, forEach_flatMap h, List.length_append]

theorem entryItems_arguments :
    (entryItems argument block infos).map
    (fun item => (item.key, item.argument)) = infos.map argument := by
  simp [entryItems, Function.comp_def]

end Loops

/-! ## Demoting and defining again -/

section Again

variable {define : ArgumentBufferBuilder → RangeInfo → ArgumentBufferBuilder × RangeInfo}

/-- Going through the entries again gives what they have. -/
theorem forEach_again (h : ∀ fields info, define fields (define fields info).2 = define fields info)
    (fields : ArgumentBufferBuilder) (infos : List RangeInfo) :
    forEach define fields (forEach define fields infos).2 = forEach define fields infos := by
  induction infos generalizing fields with
  | nil => rfl
  | cons info infos ih => simp only [forEach, h, ih]

/-- A change of the entries that the loop's body passes on. -/
theorem forEach_map {f : RangeInfo → RangeInfo}
    (h : ∀ fields info, define fields (f info) = ((define fields info).1, f (define fields info).2))
    (fields : ArgumentBufferBuilder) (infos : List RangeInfo) :
    forEach define fields (infos.map f) =
      ((forEach define fields infos).1, (forEach define fields infos).2.map f) := by
  induction infos generalizing fields with
  | nil => rfl
  | cons info infos ih => simp only [List.map_cons, forEach, h, ih]

end Again

theorem defineUav_again (fields : ArgumentBufferBuilder) (uav : RangeInfo) :
    defineUav fields (defineUav fields uav).2 = defineUav fields uav := by
  cases h : uav.withCounter <;> simp [defineUav, defineView, h]

theorem rebuild_again (info : DxbcShaderInfo) :
    rebuildArgumentBindingTables (rebuildArgumentBindingTables info) =
      rebuildArgumentBindingTables info := by
  simp only [rebuildArgumentBindingTables, forEach_again fun _ _ => (rfl : defineCbv _ _ = _),
    forEach_again fun _ _ => (rfl : defineSamplerFields _ _ = _),
    forEach_again fun _ _ => (rfl : defineSrv _ _ = _), forEach_again defineUav_again]

theorem demoted_nonApplicable (type : ResourceType) :
    demoted type = .nonApplicable ↔ type = .nonApplicable := by
  cases type <;> simp [demoted]

/-- A demoted texture gets the fields that it has. -/
theorem rebuild_demoteSingleSampleMsaaSrv (info : DxbcShaderInfo) (slot : Nat) :
    rebuildArgumentBindingTables (demoteSingleSampleMsaaSrv info slot) =
      demoteSingleSampleMsaaSrv (rebuildArgumentBindingTables info) slot := by
  have hsrv : ∀ fields srv, defineSrv fields
      (if srv.range.rangeId = slot then { srv with resourceType := demoted srv.resourceType }
      else srv) =
        ((defineSrv fields srv).1, if (defineSrv fields srv).2.range.rangeId = slot then
          { (defineSrv fields srv).2 with
            resourceType := demoted (defineSrv fields srv).2.resourceType }
          else (defineSrv fields srv).2) := by
    intro fields srv
    have hid : (defineSrv fields srv).2.range.rangeId = srv.range.rangeId := rfl
    rw [hid]
    split
    · simp only [defineSrv, defineView, ne_eq, demoted_nonApplicable]
    · rfl
  simp only [rebuildArgumentBindingTables, demoteSingleSampleMsaaSrv, forEach_map hsrv]

theorem rebuild_demoteSingleSampleMsaaSrvs (info : DxbcShaderInfo) (maskLo maskHi : Nat) :
    rebuildArgumentBindingTables (demoteSingleSampleMsaaSrvs info maskLo maskHi) =
      demoteSingleSampleMsaaSrvs (rebuildArgumentBindingTables info) maskLo maskHi := by
  simp only [demoteSingleSampleMsaaSrvs]
  generalize List.range 64 = slots
  induction slots generalizing info with
  | nil => rfl
  | cons slot slots ih =>
    rw [List.foldl_cons, List.foldl_cons, ih]
    congr 1
    split <;> split <;> simp only [rebuild_demoteSingleSampleMsaaSrv]

/-- Where the fields of the resources are, map by map. -/
def DxbcShaderInfo.indices (info : DxbcShaderInfo) : List (List (Nat × Nat × Nat × Nat)) :=
  [info.cbufferMap, info.samplerMap, info.srvMap, info.uavMap].map fun entries =>
    entries.map fun entry =>
      (entry.argIndex, entry.argCubeIndex, entry.argMetadataIndex, entry.argCounterIndex)

theorem demoteSingleSampleMsaaSrv_indices (info : DxbcShaderInfo) (slot : Nat) :
    (demoteSingleSampleMsaaSrv info slot).indices = info.indices := by
  simp only [demoteSingleSampleMsaaSrv, DxbcShaderInfo.indices, List.map_cons, List.map_map]
  congr 4
  funext srv
  simp only [Function.comp_apply]
  split <;> rfl

/-- Demoting moves no field. -/
theorem demoteSingleSampleMsaaSrvs_fields (info : DxbcShaderInfo) (maskLo maskHi : Nat) :
    let info' := demoteSingleSampleMsaaSrvs info maskLo maskHi
    info'.indices = info.indices ∧ info'.bindingTable = info.bindingTable ∧
      info'.bindingTableCbuffer = info.bindingTableCbuffer := by
  simp only [demoteSingleSampleMsaaSrvs]
  generalize List.range 64 = slots
  induction slots generalizing info with
  | nil => exact ⟨rfl, rfl, rfl⟩
  | cons slot slots ih =>
    rw [List.foldl_cons]
    obtain ⟨hindices, htable, hcbuffer⟩ := ih _
    refine ⟨hindices.trans ?_, htable.trans ?_, hcbuffer.trans ?_⟩
    all_goals split <;> split <;> first | rfl | simp only [demoteSingleSampleMsaaSrv_indices]

/-- The compiled shader has the fields of the initialised one, in the tables and in the entries. -/
theorem compiledShaderInfo_fields (info : DxbcShaderInfo) (maskLo maskHi : Nat) :
    let initialized := rebuildArgumentBindingTables info
    let compiled := compiledShaderInfo initialized maskLo maskHi
    compiled.indices = initialized.indices ∧ compiled.bindingTable = initialized.bindingTable ∧
      compiled.bindingTableCbuffer = initialized.bindingTableCbuffer := by
  intro initialized compiled
  simp only [compiled, compiledShaderInfo]
  split
  · have h := demoteSingleSampleMsaaSrvs_fields initialized maskLo maskHi
    rwa [rebuild_demoteSingleSampleMsaaSrvs, rebuild_again]
  · exact ⟨rfl, rfl, rfl⟩

theorem rebuild_bindingTable (info : DxbcShaderInfo) :
    (rebuildArgumentBindingTables info).bindingTable =
      info.samplerMap.flatMap RangeInfo.samplerFields ++ info.srvMap.flatMap RangeInfo.srvFields ++
        info.uavMap.flatMap RangeInfo.uavFields := by
  simp only [rebuildArgumentBindingTables, forEach_fields defines_sampler,
    forEach_fields defines_srv, forEach_fields defines_uav, List.nil_append]

theorem rebuild_bindingTableCbuffer (info : DxbcShaderInfo) :
    (rebuildArgumentBindingTables info).bindingTableCbuffer =
      info.cbufferMap.flatMap RangeInfo.cbvFields := by
  simp only [rebuildArgumentBindingTables, forEach_fields defines_cbv, List.nil_append]

/-! ## When the tables agree -/

/-- A table in blocks whose size is reported agrees with the encoder. -/
theorem agrees_of_size {encode : Argument → Binding → List (Nat × Word)} {items : List Item}
    (h : Placed 0 items) (hcovers : ∀ item ∈ items, item.Covers encode) {qwords : Nat}
    (hqwords : (blocks items).length ≤ qwords) :
    Layout.Agrees ⟨blocks items, items.map fun item => (item.key, item.argument),
    qwords⟩ encode := by
  refine agrees_of_placed h hcovers ?_
  intro item hitem binding w hw
  have hbounds := (hcovers item hitem).bounds hw
  have hend := h.end_le hitem
  omega

theorem dxbcConstantBuffers_agrees (info : DxbcShaderInfo) (maskLo maskHi : Nat) :
    (dxbcConstantBuffers info maskLo maskHi).Agrees encodeConstantBuffer := by
  let its := entryItems cbvArgument RangeInfo.cbvFields
      (rebuildArgumentBindingTables info).cbufferMap
  have hplaced : Placed 0 its := forEach_placed [] info.cbufferMap defines_cbv fun _ => rfl
  have hfields : (compiledShaderInfo (rebuildArgumentBindingTables info) maskLo
      maskHi).bindingTableCbuffer =
      blocks its := by
    rw [(compiledShaderInfo_fields info maskLo maskHi).2.2, rebuild_bindingTableCbuffer,
      blocks_entryItems]
    exact (forEach_flatMap defines_cbv).symm
  have hcovers : ∀ item ∈ its, item.Covers encodeConstantBuffer := by
    intro item hitem
    obtain ⟨cbv, -, rfl⟩ := List.mem_map.mp hitem
    exact covers_cbv _ _ _
  have hlength : (blocks its).length = (rebuildArgumentBindingTables info).cbufferMap.length := by
    rw [blocks_entryItems, List.length_flatMap]
    simp [RangeInfo.cbvFields, cbvBlock]
  have hagrees := agrees_of_size hplaced hcovers hlength.le
  rw [entryItems_arguments] at hagrees
  simpa only [dxbcConstantBuffers, hfields] using hagrees

theorem RangeInfo.kindFlags_buffer (info : RangeInfo) :
    info.viewType = if info.kindFlags.buffer then .buffer else .texture := by
  unfold viewType kindFlags
  cases info.resourceType <;> rfl

theorem dxbcResources_agrees (info : DxbcShaderInfo) (maskLo maskHi : Nat) :
    (dxbcResources info maskLo maskHi).Agrees encodeShaderResource := by
  let initialized := rebuildArgumentBindingTables info
  let its := entryItems samplerArgument RangeInfo.samplerFields initialized.samplerMap ++
    (entryItems srvArgument RangeInfo.srvFields initialized.srvMap ++
      entryItems uavArgument RangeInfo.uavFields initialized.uavMap)
  have hblocks : blocks its = initialized.bindingTable := by
    have happend : ∀ items more : List Item, blocks (items ++ more) = blocks items ++ blocks more :=
      fun _ _ => List.flatMap_append
    simp only [its, happend, blocks_entryItems, initialized, rebuild_bindingTable]
    simp only [rebuildArgumentBindingTables, forEach_flatMap defines_sampler,
      forEach_flatMap defines_srv, forEach_flatMap defines_uav, List.append_assoc]
  have hplaced : Placed 0 its := by
    let samplers := forEach defineSamplerFields [] info.samplerMap
    let srvs := forEach defineSrv samplers.1 info.srvMap
    have hsamplers : Placed 0 (entryItems samplerArgument RangeInfo.samplerFields samplers.2) :=
      forEach_placed [] info.samplerMap defines_sampler fun _ => rfl
    have hsrvs : Placed samplers.1.length (entryItems srvArgument RangeInfo.srvFields srvs.2) :=
      forEach_placed samplers.1 info.srvMap defines_srv fun _ => rfl
    have huavs : Placed srvs.1.length
        (entryItems uavArgument RangeInfo.uavFields initialized.uavMap) :=
      forEach_placed srvs.1 info.uavMap defines_uav fun _ => rfl
    have hsamplersEnd : samplers.1.length =
        0 + (blocks (entryItems samplerArgument RangeInfo.samplerFields samplers.2)).length :=
      length_forEach samplerArgument defines_sampler
    have hsrvsEnd : srvs.1.length = samplers.1.length +
        (blocks (entryItems srvArgument RangeInfo.srvFields srvs.2)).length :=
      length_forEach srvArgument defines_srv
    rw [hsrvsEnd] at huavs
    have hviews := hsrvs.append huavs
    rw [hsamplersEnd] at hviews
    exact hsamplers.append hviews
  have hcovers : ∀ item ∈ its, item.Covers encodeShaderResource := by
    intro item hitem
    simp only [its, List.mem_append, entryItems, List.mem_map] at hitem
    rcases hitem with ⟨sampler, -, rfl⟩ | ⟨srv, -, rfl⟩ | ⟨uav, -, rfl⟩
    · exact covers_sampler rfl _ _
    · exact covers_view (Or.inl rfl) srv.kindFlags_buffer fun htype => nomatch htype
    · exact covers_view (Or.inr rfl) uav.kindFlags_buffer fun _ => rfl
  have hagrees := agrees_of_size hplaced hcovers (congrArg List.length hblocks).le
  simp only [its, List.map_append, entryItems_arguments] at hagrees
  rw [hblocks] at hagrees
  simpa only [dxbcResources, (compiledShaderInfo_fields info maskLo maskHi).2.1, initialized,
    List.append_assoc]
    using hagrees

/-! ## Both front ends -/

/-- Slots and tables of a DXIL shader are right exactly for sound lists of resources; the tables of
a DXBC shader agree with the encoder, and compiling it moves no field. -/
theorem tables_agree_iff (rs : List ResourceInfo) (info : DxbcShaderInfo) (maskLo maskHi : Nat) :
    ((SlotsSeparate rs ∧ (dxilConstantBuffers rs).Agrees encodeConstantBuffer ∧
      (dxilResources rs).Agrees encodeShaderResource) ↔ Sound rs) ∧
    (dxbcConstantBuffers info maskLo maskHi).Agrees encodeConstantBuffer ∧
    (dxbcResources info maskLo maskHi).Agrees encodeShaderResource ∧
    (compiledShaderInfo (rebuildArgumentBindingTables info) maskLo maskHi).indices =
      (rebuildArgumentBindingTables info).indices :=
  ⟨separate_and_agree_iff_sound rs, dxbcConstantBuffers_agrees info maskLo maskHi,
    dxbcResources_agrees info maskLo maskHi, (compiledShaderInfo_fields info maskLo maskHi).1⟩

/-- A texture at one register: `Texture2D t : register(t<lowerBound>, space<space>)` or an array of
them. -/
def textureSrv (id space lowerBound bindCount : Nat) : ResourceInfo where
  resourceClass := .srv
  id
  resourceKind := 2
  dimension := 0
  returnType := 0
  compared := false
  space
  lowerBound
  bindCount
  read := true
  written := false
  sampled := false
  counter := false

/-- Four textures from `t0` on in one space and one at `t0` in another: the one gets the second slot
of the four. -/
theorem array_slots_overlap :
    ¬SlotsSeparate [textureSrv 0 0 0 4, textureSrv 1 1 0 1] := by
  intro h
  have happly := (List.pairwise_pair.mp h.apart) (by decide) rfl
  revert happly
  decide

end ArgumentTable

end Dxmt
