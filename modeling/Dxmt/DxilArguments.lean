import Dxmt.ArgumentTable

/-!
# Arguments of a DXIL shader: `BuildDxilShaderInfo`

`BuildDxilShaderInfo` gives every resource a slot and its fields, once when the shader is
initialised and once more when it is compiled. `BuildDxilArgumentInfo` looks up what it gave them,
and `DXILInitialize` counts: the numbers of arguments and of fields that `FillDxilReflection` leaves
are overwritten there.

Source: `src/airconv/dxil_air_converter.cpp:693-702, 1991-2118, 2293-2297`,
`dxil_converter.cpp:24-318`.
-/

namespace Dxmt

namespace ArgumentTable

open FrontEnds FirstFree

/-- What this part reads of a `DxilTranslationResourceInfo`. -/
structure ResourceInfo extends FrontEnds.DxilTranslationResourceInfo where
  space : Nat
  lowerBound : Nat
  bindCount : Nat
  read : Bool
  written : Bool
  sampled : Bool
  counter : Bool

namespace ResourceInfo

/-- What identifies the resource. -/
def key (r : ResourceInfo) : ResourceKey := ⟨r.resourceClass, r.id⟩

/-- The size of the range: an empty range counts as one register. -/
def size (r : ResourceInfo) : Nat := if r.bindCount = 0 then 1 else r.bindCount

theorem size_pos (r : ResourceInfo) : 0 < r.size := by
  unfold size
  split <;> omega

end ResourceInfo

/-- `dxbc::ShaderInfo`, with one map for each class of resources. -/
structure ShaderInfo where
  maps : FrontEnds.DxilTranslationResourceClass → Nat → Option RangeInfo
  bindingTable : ArgumentBufferBuilder
  bindingTableCbuffer : ArgumentBufferBuilder

/-- `AllocateDxilBindingSlot`: the slot, and the slots used after. -/
def allocateDxilBindingSlot (used : List Nat) (preferred : Nat) : Nat × List Nat :=
  if preferred ∈ used then (nextFree used, nextFree used :: used) else (preferred,
      preferred :: used)

theorem allocateDxilBindingSlot_eq (used : List Nat) (preferred : Nat) :
    allocateDxilBindingSlot used preferred =
      (place used preferred, place used preferred :: used) := by
  unfold allocateDxilBindingSlot place
  split <;> rfl

/-- The state of `BuildDxilShaderInfoImpl` between two resources. -/
structure DxilBuild extends ShaderInfo where
  slots : FrontEnds.DxilTranslationResourceClass → List Nat

namespace DxilBuild

open ArgumentBufferBuilder

/-- Nothing is built yet. -/
def init : DxilBuild := ⟨⟨fun _ _ => none, [], []⟩, fun _ => []⟩

/-- The binding slot that the resource is given next. -/
def slot (st : DxilBuild) (r : ResourceInfo) : Nat :=
  (allocateDxilBindingSlot (st.slots r.resourceClass) r.lowerBound).1

/-- What is known of the resource before its fields are. -/
def rangeInfo (st : DxilBuild) (r : ResourceInfo) : RangeInfo where
  range := ⟨r.id, st.slot r, r.lowerBound, r.size, r.space⟩

/-- The slot and the entry of the resource. -/
def record (st : DxilBuild) (r : ResourceInfo) (info : RangeInfo) : DxilBuild :=
  { st with
    slots := fun c => if c = r.resourceClass then
      (allocateDxilBindingSlot (st.slots c) r.lowerBound).2
      else st.slots c
    maps := fun c id => if c = r.resourceClass ∧ id = r.id then some info else st.maps c id }

/-- The branch for a constant buffer. -/
def buildCbv (st : DxilBuild) (r : ResourceInfo) : DxilBuild :=
  let (fields, argIndex) :=
    defineBuffer st.bindingTableCbuffer ⟨.cbv, r.id, .resource⟩ (getArgumentIndex .cbv (st.slot r))
  { st.record r { st.rangeInfo r with sizeInVec4 := 4096, argIndex } with bindingTableCbuffer :=
    fields }

/-- The branch for a sampler. -/
def buildSampler (st : DxilBuild) (r : ResourceInfo) : DxilBuild :=
  let attr := getArgumentIndex .sampler (st.slot r)
  let (fields, argIndex) := defineSampler st.bindingTable ⟨.sampler, r.id, .resource⟩ attr
  let (fields, argCubeIndex) := defineSampler fields ⟨.sampler, r.id, .cube⟩ (attr + 1)
  let (fields, argMetadataIndex) := defineInteger64 fields ⟨.sampler, r.id, .metadata⟩ (attr + 2)
  { st.record r { st.rangeInfo r with argIndex, argCubeIndex, argMetadataIndex }
  with bindingTable := fields }

/-- The field of an SRV or UAV: a typed buffer is a buffer here. -/
def defineResource (fields : ArgumentBufferBuilder) (r : ResourceInfo) (attr : Nat) :
    ArgumentBufferBuilder × Nat :=
  let type := r.resourceType
  if type = .textureBuffer then defineBuffer fields ⟨r.resourceClass, r.id, .resource⟩ attr
  else if type ≠ .nonApplicable then defineTexture fields ⟨r.resourceClass, r.id, .resource⟩ attr
  else defineBuffer fields ⟨r.resourceClass, r.id, .resource⟩ attr

/-- The branch for a shader resource. -/
def buildSrv (st : DxilBuild) (r : ResourceInfo) : DxilBuild :=
  let attr := getArgumentIndex .srv (st.slot r)
  let (fields, argIndex) := defineResource st.bindingTable r attr
  let (fields, argMetadataIndex) := defineInteger64 fields ⟨.srv, r.id, .metadata⟩ (attr + 1)
  { st.record r { st.rangeInfo r with
      resourceType := r.resourceType, scalerType := toScalerDataType r.returnType, read := r.read
      sampled := r.sampled, compared := r.compared, argIndex, argMetadataIndex } with
    bindingTable := fields }

/-- The branch for an unordered access view. -/
def buildUav (st : DxilBuild) (r : ResourceInfo) : DxilBuild :=
  let attr := getArgumentIndex .uav (st.slot r)
  let (fields, argIndex) := defineResource st.bindingTable r attr
  let (fields, argMetadataIndex) := defineInteger64 fields ⟨.uav, r.id, .metadata⟩ (attr + 1)
  let info := { st.rangeInfo r with
    resourceType := r.resourceType, scalerType := toScalerDataType r.returnType, read := r.read
    written := r.written, withCounter := r.counter, argIndex, argMetadataIndex }
  if r.counter then
    let (fields, argCounterIndex) := defineBuffer fields ⟨.uav, r.id, .counter⟩ (attr + 2)
    { st.record r { info with argCounterIndex } with bindingTable := fields }
  else { st.record r info with bindingTable := fields }

/-- One resource of the list. -/
def buildResource (st : DxilBuild) (r : ResourceInfo) : DxilBuild :=
  match r.resourceClass with
  | .cbv => st.buildCbv r
  | .sampler => st.buildSampler r
  | .srv => st.buildSrv r
  | .uav => st.buildUav r
  | .unknown => st

end DxilBuild

/-- `BuildDxilShaderInfo`. -/
def buildDxilShaderInfo (resources : List ResourceInfo) : ShaderInfo :=
  (resources.foldl DxilBuild.buildResource DxilBuild.init).toShaderInfo

/-! ## The arguments -/

/-- The flags of a texture's argument. -/
def textureArgumentFlags (r : ResourceInfo) (uav : Bool) : ArgumentFlags :=
  let textureKind := if r.resourceKind ≠ 0 then r.resourceKind else r.dimension
  { texture := true
    tbufferOffset := r.resourceKind = 10
    textureMinlodClamp := r.resourceKind ≠ 10
    textureMultisampled := textureKind = 3 || textureKind = 8
    texture3D := textureKind = 4
    textureCube := textureKind = 5 || textureKind = 9
    textureUint := r.returnType = 2
    textureSint := r.returnType = 3
    textureDepth := r.compared
    textureArray := textureKind = 6 || textureKind = 7 || textureKind = 8 || textureKind = 9
    readAccess := r.read || r.sampled || (!uav && !r.written)
    writeAccess := r.written
    uavCounter := r.counter }

/-- The flags of a buffer's argument. -/
def bufferArgumentFlags (r : ResourceInfo) (uav : Bool) : ArgumentFlags :=
  { elementWidth := true
    buffer := true
    readAccess := r.read || !uav
    writeAccess := r.written
    uavCounter := r.counter }

/-- The resource is a buffer, by its kind or else by its dimension. -/
def ResourceInfo.isBufferResource (r : ResourceInfo) : Bool :=
  match r.resourceKind with
  | 10 | 11 | 12 => true
  | 1 | 2 | 3 | 4 | 5 | 6 | 7 | 8 | 9 => false
  | _ => r.dimension = 0 || r.dimension = 1

/-- The flags of the resource's argument. -/
def ResourceInfo.flags (r : ResourceInfo) : ArgumentFlags :=
  match r.resourceClass with
  | .cbv => { buffer := true, readAccess := true }
  | .srv => if r.isBufferResource then bufferArgumentFlags r false else textureArgumentFlags r false
  | .uav => if r.isBufferResource then bufferArgumentFlags r true else textureArgumentFlags r true
  | .sampler | .unknown => {}

/-- The argument of a resource with its entry in the map. -/
def ResourceInfo.argument (r : ResourceInfo) (info : RangeInfo) : Argument where
  type := r.resourceClass
  bindingSlot := info.range.bindingSlot
  flags := r.flags
  structurePtrOffset := info.argIndex
  registerSpace := r.space
  registerLowerBound := r.lowerBound
  registerCount := r.size
  cbufferSizeInVec4 := if r.resourceClass = .cbv then 4096 else 0

/-- `BuildDxilArgumentInfo` for the resources in one of the tables. -/
def dxilArguments (resources : List ResourceInfo)
    (wanted : FrontEnds.DxilTranslationResourceClass → Bool) :
    List (ResourceKey × Argument) :=
  resources.filterMap fun r =>
    if wanted r.resourceClass then
      ((buildDxilShaderInfo resources).maps r.resourceClass r.id).map fun info =>
      (r.key, r.argument info)
    else none

/-- The class has its field in the constant table. -/
def isCbv (c : FrontEnds.DxilTranslationResourceClass) : Bool := c = .cbv

/-- The class has its fields in the argument table. -/
def isArgument (c : FrontEnds.DxilTranslationResourceClass) :
    Bool := c = .sampler || c = .srv || c = .uav

/-- How many fields the reflection counts for an argument. -/
def qwordCount (arg : Argument) : Nat :=
  let count := if arg.type = .sampler then 3
    else if arg.flags.texture then 2
    else if arg.flags.buffer then 2
    else 1
  if arg.flags.uavCounter then max count 3 else count

/-- `ArgumentTableQwords` as `DXILInitialize` leaves it. -/
def argumentTableQwords (arguments : List Argument) : Nat :=
  arguments.foldl (fun qwords arg => max qwords (arg.structurePtrOffset + qwordCount arg)) 0

/-- The constant buffers: what the compiled shader declares, the arguments, and
`NumConstantBuffers`. -/
def dxilConstantBuffers (resources : List ResourceInfo) : Layout where
  fields := (buildDxilShaderInfo resources).bindingTableCbuffer
  arguments := dxilArguments resources isCbv
  qwords := (dxilArguments resources isCbv).length

/-- The other resources, with `ArgumentTableQwords`. -/
def dxilResources (resources : List ResourceInfo) : Layout where
  fields := (buildDxilShaderInfo resources).bindingTable
  arguments := dxilArguments resources isArgument
  qwords := argumentTableQwords ((dxilArguments resources isArgument).map Prod.snd)

/-! ## One resource -/

namespace ResourceInfo

/-- The type of the first field of an SRV or UAV. -/
def fieldType (r : ResourceInfo) : FieldType :=
  if r.resourceType = .textureBuffer ∨ r.resourceType = .nonApplicable then .buffer else .texture

/-- The class is one of the four. -/
def Known (r : ResourceInfo) : Prop := r.resourceClass ≠ .unknown

instance (r : ResourceInfo) : Decidable r.Known := inferInstanceAs (Decidable (_ ≠ _))

/-- Whether the resource has its fields in the table of the constant buffers, or in the other one.
-/
def inTable (r : ResourceInfo) (cbuffer : Bool) : Bool :=
  if cbuffer then isCbv r.resourceClass else isArgument r.resourceClass

theorem Known.inTable {r : ResourceInfo} (h : r.Known) :
    r.inTable (isCbv r.resourceClass) = true := by
  unfold Known at h
  cases hc : r.resourceClass <;> simp_all [ResourceInfo.inTable, isCbv, isArgument]

theorem known_of_inTable {r : ResourceInfo} {cbuffer : Bool} (h : r.inTable cbuffer = true) :
    r.Known := by
  unfold Known
  rintro hc
  cases cbuffer <;> simp [inTable, isCbv, isArgument, hc] at h

end ResourceInfo

namespace DxilBuild

variable (st : DxilBuild) (r : ResourceInfo)

/-- The fields of a resource. -/
def block : List Field :=
  let attr := getArgumentIndex r.resourceClass (st.slot r)
  match r.resourceClass with
  | .cbv => cbvBlock r.id attr
  | .sampler => samplerBlock r.id attr
  | .srv => viewBlock r.key r.fieldType false attr
  | .uav => viewBlock r.key r.fieldType r.counter attr
  | .unknown => []

/-- The table of the constant buffers, or that of the other resources. -/
def table (cbuffer : Bool) :
    List Field := if cbuffer then st.bindingTableCbuffer else st.bindingTable

/-- What the resource is given. -/
def entry : RangeInfo := ((st.buildResource r).maps r.resourceClass r.id).getD (st.rangeInfo r)

variable {st r}

theorem defineResource_eq (fields : ArgumentBufferBuilder) (r : ResourceInfo) (attr : Nat) :
    defineResource fields r attr =
      (fields ++ [⟨r.fieldType, ⟨r.resourceClass, r.id, .resource⟩, attr⟩], fields.length) := by
  unfold defineResource ResourceInfo.fieldType
  cases r.resourceType <;> rfl

/-- One resource adds its entry, takes a slot and appends its fields to one table. -/
theorem buildResource_maps (h : r.Known) (c : FrontEnds.DxilTranslationResourceClass) (id : Nat) :
    (st.buildResource r).maps c id =
      if c = r.resourceClass ∧ id = r.id then some (st.entry r) else st.maps c id := by
  unfold ResourceInfo.Known at h
  unfold entry buildResource
  split
  next hc => simp [buildCbv, record, hc]
  next hc => simp [buildSampler, record, hc]
  next hc => simp [buildSrv, record, hc]
  next hc =>
    unfold buildUav
    split <;> simp [record, hc]
  next hc => exact absurd hc h

theorem buildResource_slots (h : r.Known) (c : FrontEnds.DxilTranslationResourceClass) :
    (st.buildResource r).slots c =
      if c = r.resourceClass then place (st.slots c) r.lowerBound :: st.slots c
      else st.slots c := by
  unfold ResourceInfo.Known at h
  unfold buildResource
  split
  next hc => simp [buildCbv, record, allocateDxilBindingSlot_eq]
  next hc => simp [buildSampler, record, allocateDxilBindingSlot_eq]
  next hc => simp [buildSrv, record, allocateDxilBindingSlot_eq]
  next hc =>
    unfold buildUav
    split <;> simp [record, allocateDxilBindingSlot_eq]
  next hc => exact absurd hc h

theorem buildResource_table (cbuffer : Bool) :
    (st.buildResource r).table cbuffer =
      st.table cbuffer ++ if r.inTable cbuffer then st.block r else [] := by
  unfold buildResource block table ResourceInfo.inTable
  cases hc : r.resourceClass with
  | cbv => cases cbuffer <;> simp [buildCbv, isCbv, isArgument, record, cbvBlock]
  | sampler =>
    cases cbuffer <;>
      simp [buildSampler, isCbv, isArgument, record, samplerBlock]
  | srv =>
    cases cbuffer <;>
      simp [buildSrv, isCbv, isArgument, record, defineResource_eq, viewBlock, ResourceInfo.key, hc]
  | uav =>
    cases hcounter : r.counter <;> cases cbuffer <;>
      simp [buildUav, isCbv, isArgument, record, defineResource_eq, viewBlock, ResourceInfo.key,
          hc, hcounter]
  | unknown => cases cbuffer <;> simp [isCbv, isArgument]

/-- The entry has the range with the slot, and the index where the table ended. -/
theorem entry_range (h : r.Known) : (st.entry r).range = (st.rangeInfo r).range := by
  unfold ResourceInfo.Known at h
  unfold entry buildResource
  split
  next hc => simp [buildCbv, record]
  next hc => simp [buildSampler, record]
  next hc => simp [buildSrv, record]
  next hc =>
    unfold buildUav
    split <;> simp [record]
  next hc => exact absurd hc h

theorem entry_argIndex {cbuffer : Bool} (h : r.inTable cbuffer = true) :
    (st.entry r).argIndex = (st.table cbuffer).length := by
  unfold entry buildResource table
  cases hc : r.resourceClass with
  | cbv => cases cbuffer <;> simp_all [ResourceInfo.inTable, isCbv, isArgument, buildCbv, record]
  | sampler =>
    cases cbuffer <;> simp_all [ResourceInfo.inTable, isCbv, isArgument, buildSampler, record]
  | srv =>
    cases cbuffer <;> simp_all [ResourceInfo.inTable, isCbv, isArgument, buildSrv, record,
        defineResource_eq]
  | uav =>
    cases hcounter : r.counter <;> cases cbuffer <;>
      simp_all [ResourceInfo.inTable, isCbv, isArgument, buildUav, record, defineResource_eq]
  | unknown => cases cbuffer <;> simp_all [ResourceInfo.inTable, isCbv, isArgument]

/-! ## All resources -/

variable {rs : List ResourceInfo} {cbuffer : Bool}

/-- The keys of the resources that have a class. -/
def keys (rs : List ResourceInfo) : List ResourceKey := (rs.filter (·.Known)).map ResourceInfo.key

theorem keys_cons_known (h : r.Known) : keys (r :: rs) = r.key :: keys rs := by
  simp [keys, h]

theorem keys_cons_unknown (h : ¬r.Known) : keys (r :: rs) = keys rs := by
  simp [keys, h]

/-- Builds a list of resources. -/
def run (st : DxilBuild) (rs : List ResourceInfo) : DxilBuild := rs.foldl buildResource st

@[simp] theorem run_nil : st.run [] = st := rfl

@[simp] theorem run_cons : st.run (r :: rs) = (st.buildResource r).run rs := rfl

theorem buildResource_unknown (h : ¬r.Known) : st.buildResource r = st := by
  have hc : r.resourceClass = .unknown := not_not.mp h
  simp only [buildResource, hc]

/-- An entry stays when no later resource has its key. -/
theorem run_maps_of_notMem (st : DxilBuild) {key : ResourceKey} (h : key ∉ keys rs) :
    (st.run rs).maps key.resourceClass key.id = st.maps key.resourceClass key.id := by
  induction rs generalizing st with
  | nil => rfl
  | cons r rs ih =>
    by_cases hknown : r.Known
    · rw [keys_cons_known hknown, List.mem_cons, not_or] at h
      rw [run_cons, ih _ h.2, buildResource_maps hknown, if_neg]
      rintro ⟨hclass, hid⟩
      exact h.1 (congrArg₂ ResourceKey.mk hclass hid)
    · rw [keys_cons_unknown hknown] at h
      rw [run_cons, ih _ h, buildResource_unknown hknown]

/-- No entry is taken away. -/
theorem run_maps_isSome_of_isSome {c : FrontEnds.DxilTranslationResourceClass} {id : Nat}
    (h : (st.maps c id).isSome) :
    ((st.run rs).maps c id).isSome := by
  induction rs generalizing st with
  | nil => exact h
  | cons r rs ih =>
    apply ih
    by_cases hknown : r.Known
    · rw [buildResource_maps hknown]
      split
      · rfl
      · exact h
    · rwa [buildResource_unknown hknown]

/-- Every resource with a class has an entry in the end. -/
theorem run_maps_isSome (st : DxilBuild) (h : r ∈ rs) (hknown : r.Known) :
    ((st.run rs).maps r.resourceClass r.id).isSome := by
  induction rs generalizing st with
  | nil => cases h
  | cons first rs ih =>
    rcases List.mem_cons.mp h with rfl | h
    · rw [run_cons]
      apply run_maps_isSome_of_isSome
      rw [buildResource_maps hknown, if_pos ⟨rfl, rfl⟩]
      rfl
    · exact ih _ h

/-- The arguments of one table, each with its fields. -/
def items (cbuffer : Bool) (st : DxilBuild) : List ResourceInfo → List Item
  | [] => []
  | r :: rs =>
    (if r.inTable cbuffer then [⟨r.key, r.argument (st.entry r), st.block r⟩] else []) ++
      items cbuffer (st.buildResource r) rs

theorem run_table (cbuffer : Bool) (st : DxilBuild) (rs : List ResourceInfo) :
    (st.run rs).table cbuffer = st.table cbuffer ++ blocks (items cbuffer st rs) := by
  induction rs generalizing st with
  | nil => simp [items, blocks]
  | cons r rs ih =>
    rw [run_cons, ih, buildResource_table, List.append_assoc, items]
    split <;> simp [blocks]

theorem placed_items (cbuffer : Bool) (st : DxilBuild) (rs : List ResourceInfo) :
    Placed (st.table cbuffer).length (items cbuffer st rs) := by
  induction rs generalizing st with
  | nil => trivial
  | cons r rs ih =>
    have htable : (st.buildResource r).table cbuffer = _ := buildResource_table cbuffer
    have hrest := ih (st.buildResource r)
    rw [htable, List.length_append] at hrest
    rw [items]
    split
    next hin =>
      rw [if_pos hin] at hrest
      exact ⟨entry_argIndex hin, hrest⟩
    next hin => simpa [hin] using hrest

theorem mem_items {item : Item} (h : item ∈ items cbuffer st rs) :
    ∃ r ∈ rs, ∃ st' : DxilBuild, r.inTable cbuffer = true ∧
      item = ⟨r.key, r.argument (st'.entry r), st'.block r⟩ := by
  induction rs generalizing st with
  | nil => cases h
  | cons r rs ih =>
    rw [items, List.mem_append] at h
    rcases h with h | h
    · split at h
      next hin => exact ⟨r, List.mem_cons_self, st, hin, List.mem_singleton.mp h⟩
      next => cases h
    · obtain ⟨r', hr', rest⟩ := ih h
      exact ⟨r', List.mem_cons_of_mem _ hr', rest⟩

/-- With different keys, what is looked up in the end is what each resource was given. -/
theorem lookups_eq (cbuffer : Bool) (st : DxilBuild) (h : (keys rs).Nodup) :
    (rs.filterMap fun r =>
      if r.inTable cbuffer then
        ((st.run rs).maps r.resourceClass r.id).map fun info => (r.key, r.argument info)
      else none) =
      (items cbuffer st rs).map fun item => (item.key, item.argument) := by
  induction rs generalizing st with
  | nil => rfl
  | cons r rs ih =>
    by_cases hknown : r.Known
    · rw [keys_cons_known hknown, List.nodup_cons] at h
      have hfinal : ((st.buildResource r).run rs).maps r.resourceClass r.id =
          some (st.entry r) := by
        have hkeep := run_maps_of_notMem (st.buildResource r) h.1
        rw [ResourceInfo.key] at hkeep
        rw [hkeep, buildResource_maps hknown, if_pos ⟨rfl, rfl⟩]
      rw [List.filterMap_cons, items, List.map_append, ← ih _ h.2, run_cons]
      simp only [hfinal]
      split <;> simp_all
    · rw [keys_cons_unknown hknown] at h
      have hout : r.inTable cbuffer = false := by
        rw [← Bool.not_eq_true]
        exact fun hin => hknown (ResourceInfo.known_of_inTable hin)
      rw [List.filterMap_cons, items, ← List.nil_append (List.filterMap _ _), List.map_append,
        ← ih _ h, run_cons]
      simp [hout]

end DxilBuild

/-! ## Flags and fields -/

namespace ResourceInfo

/-- What a resource is by its kind and what it is by its dimension do not contradict each other: of
the kinds that are no texture only a buffer's dimension is a buffer for the flags, and dimensions
end at 10. -/
def KindAgrees (r : ResourceInfo) : Prop :=
  (13 ≤ r.resourceKind ∧ r.resourceKind ≤ 18 → r.dimension ≤ 1) ∧
    (r.resourceKind = 0 ∨ 18 < r.resourceKind → r.dimension ≤ 10)

theorem isBuffer_toResourceType (kind dimension : Nat) :
    (toResourceType kind dimension = .textureBuffer ∨ toResourceType kind dimension =
      .nonApplicable) ↔
      (10 ≤ kind ∧ kind ≤ 18) ∨ ((kind = 0 ∨ 18 < kind) ∧ (dimension ≤ 1 ∨ 10 < dimension)) := by
  unfold toResourceType
  split
  case h_19 =>
    simp only [imp_false] at *
    have hkind : kind = 0 ∨ 18 < kind := by omega
    split <;> simp only [imp_false, reduceCtorEq, or_self, or_true, true_or, true_iff, false_iff]
        at * <;> omega
  all_goals simp

theorem isBufferResource_iff (r : ResourceInfo) :
    r.isBufferResource = true ↔
      (10 ≤ r.resourceKind ∧ r.resourceKind ≤ 12) ∨
        ((r.resourceKind = 0 ∨ 12 < r.resourceKind) ∧ r.dimension ≤ 1) := by
  unfold isBufferResource
  split
  case h_13 =>
    simp only [imp_false, Bool.or_eq_true, decide_eq_true_eq] at *
    omega
  all_goals simp_all

/-- The flags say the type of the field exactly when kind and dimension agree. -/
theorem kindAgrees_iff (r : ResourceInfo) :
    r.KindAgrees ↔ r.fieldType = if r.isBufferResource then .buffer else .texture := by
  have htype := isBuffer_toResourceType r.resourceKind r.dimension
  have hflags := r.isBufferResource_iff
  unfold KindAgrees fieldType FrontEnds.DxilTranslationResourceInfo.resourceType
  by_cases hbuffer : r.isBufferResource = true
  · have hin := htype.mpr (by have := hflags.mp hbuffer; omega)
    rw [if_pos hin, if_pos hbuffer]
    have := hflags.mp hbuffer
    simp only [iff_true]
    omega
  · rw [if_neg hbuffer]
    have hout := mt hflags.mpr hbuffer
    split
    next hin =>
      have := htype.mp hin
      simp only [reduceCtorEq, iff_false]
      omega
    next hin =>
      have := mt htype.mpr hin
      simp only [iff_true]
      omega

end ResourceInfo

end ArgumentTable

end Dxmt
