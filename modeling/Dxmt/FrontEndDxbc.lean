import Dxmt.FrontEnds

/-!
# What `Converter` emits

`convert_eq_metal`: the front end of DXBC emits the call of D3D for every operation but comparisons
on 1D textures, which it drops (`convert_compares1D`).
-/

namespace Dxmt

namespace FrontEnds

open AirBuilder Airconv

section Lookup

variable {α : Type} {key : α → Nat} {x : α} {xs : List α}

/-- With keys that are distinct, the search for a member's key finds the member. -/
theorem find?_key (hnodup : (xs.map key).Nodup) (h : x ∈ xs) :
    (xs.find? fun y => key y == key x) = some x := by
  induction xs with
  | nil => cases h
  | cons y ys ih =>
    rw [List.map_cons, List.nodup_cons] at hnodup
    rcases List.mem_cons.mp h with rfl | h
    · simp
    · have hne : key y ≠ key x := fun he => hnodup.1 (he ▸ List.mem_map_of_mem h)
      rw [List.find?_cons_of_neg (by simpa using hne)]
      exact ih hnodup.2 h

end Lookup

section Shader

variable {s : Shader} {env : Environment} {r : TextureResource} {smp : SamplerResource}

theorem Shader.loadSrv_eq (h : r ∈ s.srvs) : s.loadSrv r.rangeId = some r.srv :=
  congrArg _ (find?_key s.srvs_nodup h)

theorem Shader.loadUav_eq (h : r ∈ s.uavs) : s.loadUav env r.rangeId = some (r.uav env) :=
  congrArg _ (find?_key s.uavs_nodup h)

theorem Shader.loadSampler_eq (h : smp ∈ s.samplers) :
    s.loadSampler smp.rangeId = some ⟨.tableField .handle smp.argIndex,
      .tableField .handle smp.argCubeIndex,
        .unary .bitcastFloat (.unary .trunc (.tableField .long smp.argMetadataIndex))⟩ :=
  congrArg _ (find?_key s.samplers_nodup h)

theorem Shader.loadCounter_eq (h : r ∈ s.uavs) (htype : r.resourceType = .nonApplicable)
    (hcounter : r.withCounter = true) : s.loadCounter r.rangeId = some r.counter := by
  unfold Shader.loadCounter
  rw [find?_key s.uavs_nodup h]
  simp [Option.filter, htype, hcounter]

/-- The counter of DXIL is found where it is marked. -/
theorem Shader.loadDxilCounter_eq (h : r ∈ s.uavs) (htype : r.resourceType = .nonApplicable) :
    s.loadDxilCounter r.rangeId = if r.marks.counter then some r.counter else none := by
  unfold Shader.loadDxilCounter
  rw [find?_key s.uavs_nodup h]
  cases hcounter : r.marks.counter <;> simp [Option.filter, htype, hcounter]

theorem find?_translation {rs : List TextureResource} (c : DxilTranslationResourceClass)
    (id : Nat) :
    ((rs.map fun r => r.translation c).find? fun r => r.resourceClass = c ∧ r.id = id) =
      (rs.find? fun r => r.rangeId == id).map fun r => r.translation c := by
  rw [List.find?_map]
  congr 2
  funext r
  simp only [Function.comp_apply, TextureResource.translation, true_and]
  rfl

theorem find?_translation_ne {rs : List TextureResource} {c c' : DxilTranslationResourceClass}
    (h : c' ≠ c) (id : Nat) :
    ((rs.map fun r => r.translation c').find? fun r => r.resourceClass = c ∧ r.id = id) = none := by
  rw [List.find?_eq_none]
  rintro r' hr
  obtain ⟨r, -, rfl⟩ := List.mem_map.mp hr
  simp [TextureResource.translation, h]

theorem Shader.getTextureHandle_srv (h : r ∈ s.srvs) :
    s.getTextureHandle env (.srv, r.rangeId) = some (r.handle, r.translation .srv) := by
  have hfind : s.findResource .srv r.rangeId = some (r.translation .srv) := by
    unfold Shader.findResource Shader.translation
    rw [List.find?_append, find?_translation, find?_key s.srvs_nodup h]
    rfl
  simp [Shader.getTextureHandle, hfind, Shader.loadSrv_eq h, TextureResource.srv]

theorem Shader.getTextureHandle_uav (h : r ∈ s.uavs) :
    s.getTextureHandle env (.uav, r.rangeId) = some (r.handle, r.translation .uav) := by
  have hfind : s.findResource .uav r.rangeId = some (r.translation .uav) := by
    unfold Shader.findResource Shader.translation
    rw [List.find?_append, find?_translation_ne (by decide), find?_translation,
      find?_key s.uavs_nodup h]
    rfl
  simp [Shader.getTextureHandle, hfind, Shader.loadUav_eq h, TextureResource.uav]

theorem Shader.getSamplerHandle_eq (h : smp ∈ s.samplers) :
    s.getSamplerHandle (.sampler, smp.rangeId) = some (.tableField .handle smp.argIndex) := by
  simp [Shader.getSamplerHandle, Shader.loadSampler_eq h]

end Shader

theorem toResourceType_resourceKindOf (type : ResourceType) (dimension : Nat) :
    toResourceType (resourceKindOf type) dimension = type := by
  cases type <;> rfl

/-- A coordinate of the right type is lowered to a vector with a null of that type. -/
theorem lowerCoordinate_eq {type : ScalarType} (t : TypedTerm type) :
    lowerCoordinate t.val = .vector [t.val, Term.null type] := by
  unfold lowerCoordinate
  rw [t.property]

section Address

variable {a : Sampling} {tex : TextureResource}

theorem srv_metadata : tex.srv.metadata = tex.metadata := rfl

theorem srv_logical : tex.srv.logical = toAirResourceType tex.resourceType tex.compared := rfl

/-- The switch of the sampling instructions reads the coordinates and the element of the texture. -/
theorem sampleAddress_eq (h : sampleable a.tex.resourceType = true) :
    sampleAddress a.tex.srv.logical (fun i => (a.coord i).val) a.tex.srv.metadata =
      some ⟨a.coordinates, a.element, isCube a.tex.resourceType⟩ := by
  rw [srv_logical, srv_metadata]
  unfold Sampling.coordinates Sampling.element
  cases htype : a.tex.resourceType <;> rw [htype] at h <;> cases h <;> cases a.tex.compared <;>
    first
    | rfl
    | exact congrArg (fun c => some (⟨c, _, _⟩ : SampleAddress)) (lowerCoordinate_eq (a.coord 0))

/-- The kind that the argument table declares is the one of Metal. -/
theorem kind_eq (type : ResourceType) (compared : Bool) {compares : Bool}
    (h : coordinateCount type = 1 → compares = false) :
    loweringTexture1dTo2d (toAirResourceType type compared) =
      metalKind type (if coordinateCount type = 1 then compares else compared) := by
  cases type
  case texture1D => cases h rfl; rfl
  case texture1DArray => cases h rfl; rfl
  all_goals cases compared <;> rfl

theorem srv_kind {compares : Bool} (h : coordinateCount tex.resourceType = 1 → compares = false)
    (access : MemoryAccess) : tex.srv.texture.kind = (metalTexture tex compares access).kind :=
  kind_eq _ _ h

theorem minLODClamp_eq (clamp : Option (TypedTerm .float)) :
    minLODClamp a.tex.srv.metadata (clamp.map fun t => Operation.replicated t.val) =
      a.clamp clamp := by
  cases clamp <;> rfl

/-- The sampler is the one that the type takes. -/
theorem sampler_eq (coord arrayIndex : Arg) :
    (⟨coord, arrayIndex, isCube a.tex.resourceType⟩ : SampleAddress).samplerHandle
      ⟨.tableField .handle a.smp.argIndex, .tableField .handle a.smp.argCubeIndex, a.bias⟩ =
        a.sampler := by
  unfold SampleAddress.samplerHandle Sampling.sampler
  cases isCube a.tex.resourceType <;> rfl

/-- The offset is the one that the type takes. -/
theorem offset_eq (immediate : Fin 3 → BitVec 32) :
    getOffset a.tex.srv.texture.kind (texelOffset a.tex.resourceType immediate) =
      a.offset immediate := by
  unfold Sampling.offset metalTexture TextureResource.srv
  cases a.tex.resourceType <;> cases a.tex.compared <;> rfl

theorem derivative_eq (h : sampleable a.tex.resourceType = true) (d : Fin 3 → TypedTerm .float) :
    derivative a.tex.srv.logical ![(d 0).val, (d 1).val, (d 2).val, .undef .float] =
      a.vector d := by
  rw [srv_logical]
  unfold Sampling.vector
  cases htype : a.tex.resourceType <;> rw [htype] at h <;> cases h <;> cases a.tex.compared <;>
    first | rfl | exact lowerCoordinate_eq (d 0)

theorem sampleable_of_comparable {type : ResourceType} (h : comparable type = true) :
    sampleable type = true := by
  cases type <;> first | rfl | cases h

/-- The address of a comparison is the one that the type takes. -/
theorem compareAddress_eq (h : comparable a.tex.resourceType = true)
    (hcompared : a.tex.compared = true) (h1 : coordinateCount a.tex.resourceType ≠ 1) :
    compareAddress a.tex.srv.logical (fun i => (a.coord i).val) a.tex.srv.metadata =
      some ⟨a.coordinates, a.element, isCube a.tex.resourceType⟩ := by
  rw [← sampleAddress_eq (sampleable_of_comparable h), srv_logical, hcompared]
  cases htype : a.tex.resourceType <;> rw [htype] at h h1 <;>
    first | exact absurd rfl h1 | cases h; done | rfl

/-- No comparison is emitted for a 1D texture. -/
theorem compareAddress_one (h1 : coordinateCount a.tex.resourceType = 1) (src : SrcOperand) :
    compareAddress a.tex.srv.logical src a.tex.srv.metadata = none := by
  rw [srv_logical]
  cases htype : a.tex.resourceType <;> rw [htype] at h1 <;> cases h1 <;> rfl

end Address

namespace Operation
variable {s : Shader} {env : Environment}

/-- Comparisons on 1D textures. -/
def Compares1D : Operation → Prop
  | sampleCmp a _ _ _ | sampleCmpLevelZero a _ _ => coordinateCount a.tex.resourceType = 1
  | _ => False


/-- The switch of the gathers. -/
theorem gatherAddress_eq {a : Sampling} (h : gatherable a.tex.resourceType = true)
    (offset : Fin 2 → TypedTerm .int) :
    ∃ o, gatherAddress a.tex.srv.logical (fun i => (a.coord i).val)
        ![(offset 0).val, (offset 1).val, .int 0, .int 0] a.tex.srv.metadata =
          some (⟨a.coordinates, a.element, isCube a.tex.resourceType⟩, o) ∧
      ∀ compares, pushGatherOffset (metalTexture a.tex compares .sample).kind o =
        pushGatherOffset (metalTexture a.tex compares .sample).kind
          (.vector [(offset 0).val, (offset 1).val]) := by
  have hs : sampleable a.tex.resourceType = true := by
    cases htype : a.tex.resourceType <;> rw [htype] at h <;> first | rfl | cases h
  have haddress := sampleAddress_eq hs
  rw [srv_logical] at haddress ⊢
  unfold gatherAddress metalTexture
  cases htype : a.tex.resourceType <;> rw [htype] at h haddress <;> cases h <;>
    cases hc : a.tex.compared <;> rw [hc] at haddress <;>
    exact ⟨_, congrArg (Option.map fun b => (b, _)) haddress, fun _ => rfl⟩

/-- `sample` is converted to its meaning. -/
theorem convert_sample {a : Sampling} {offset : Fin 3 → BitVec 32}
    {clamp : Option (TypedTerm .float)} (h : (sample a offset clamp).Valid s) :
    convert s env (sample a offset clamp).dxbc = (sample a offset clamp).metal env := by
  obtain ⟨htex, hsmp, htype⟩ := h
  unfold dxbc metal convert
  simp only [Shader.loadSrv_eq htex, Shader.loadSampler_eq hsmp,
    sampleAddress_eq htype, minLODClamp_eq, offset_eq]
  simp only [createSampleCommon, srv_kind (fun _ => rfl) .sample]
  rw [← sampler_eq a.coordinates a.element]
  rfl

/-- `sample_b` is converted to its meaning. -/
theorem convert_sampleBias {a : Sampling} {offset : Fin 3 → BitVec 32} {bias : TypedTerm .float}
    {clamp : Option (TypedTerm .float)} (h : (sampleBias a offset bias clamp).Valid s) :
    convert s env (sampleBias a offset bias clamp).dxbc =
    (sampleBias a offset bias clamp).metal env := by
  obtain ⟨htex, hsmp, htype⟩ := h
  unfold dxbc metal convert
  simp only [Shader.loadSrv_eq htex, Shader.loadSampler_eq hsmp,
    sampleAddress_eq htype, minLODClamp_eq, offset_eq]
  simp only [createSampleCommon, srv_kind (fun _ => rfl) .sample]
  rw [← sampler_eq a.coordinates a.element]
  rfl

/-- `sample_l` is converted to its meaning. -/
theorem convert_sampleLevel {a : Sampling} {offset : Fin 3 → BitVec 32} {lod : TypedTerm .float}
    (h : (sampleLevel a offset lod).Valid s) :
    convert s env (sampleLevel a offset lod).dxbc = (sampleLevel a offset lod).metal env := by
  obtain ⟨htex, hsmp, htype⟩ := h
  unfold dxbc metal convert
  simp only [Shader.loadSrv_eq htex, Shader.loadSampler_eq hsmp,
    sampleAddress_eq htype, offset_eq]
  simp only [createSampleCommon, srv_kind (fun _ => rfl) .sample]
  rw [← sampler_eq a.coordinates a.element]
  rfl

/-- `sample_d` is converted to its meaning. -/
theorem convert_sampleGrad {a : Sampling} {offset : Fin 3 → BitVec 32}
    {ddx ddy : Fin 3 → TypedTerm .float} {clamp : Option (TypedTerm .float)}
    (h : (sampleGrad a offset ddx ddy clamp).Valid s) :
    convert s env (sampleGrad a offset ddx ddy clamp).dxbc =
    (sampleGrad a offset ddx ddy clamp).metal env := by
  obtain ⟨htex, hsmp, htype⟩ := h
  unfold dxbc metal convert
  simp only [Shader.loadSrv_eq htex, Shader.loadSampler_eq hsmp,
    sampleAddress_eq htype, minLODClamp_eq, derivative_eq htype]
  simp only [createSampleGrad, srv_kind (fun _ => rfl) .sample]
  rw [← sampler_eq a.coordinates a.element]
  rfl

/-- `sample_c` is converted to its meaning. -/
theorem convert_sampleCmp {a : Sampling} {offset : Fin 3 → BitVec 32} {reference : TypedTerm .float}
    {clamp : Option (TypedTerm .float)} (h : (sampleCmp a offset reference clamp).Valid s)
    (h1 : coordinateCount a.tex.resourceType ≠ 1) :
    convert s env (sampleCmp a offset reference clamp).dxbc =
      (sampleCmp a offset reference clamp).metal env := by
  obtain ⟨htex, hsmp, htype, hcompared⟩ := h
  unfold dxbc metal convert
  simp only [Shader.loadSrv_eq htex, Shader.loadSampler_eq hsmp,
    compareAddress_eq htype hcompared h1, minLODClamp_eq, offset_eq]
  have hkind : a.tex.srv.texture.kind = (metalTexture a.tex true .sample).kind :=
    srv_kind (fun h => absurd h h1) .sample
  simp only [createSampleCmpCommon, hkind, Bool.false_eq_true, if_false]
  rw [← sampler_eq a.coordinates a.element]
  rfl

/-- `sample_c_lz` is converted to its meaning. -/
theorem convert_sampleCmpLevelZero {a : Sampling} {offset : Fin 3 → BitVec 32}
    {reference : TypedTerm .float} (h : (sampleCmpLevelZero a offset reference).Valid s)
    (h1 : coordinateCount a.tex.resourceType ≠ 1) :
    convert s env (sampleCmpLevelZero a offset reference).dxbc =
      (sampleCmpLevelZero a offset reference).metal env := by
  obtain ⟨htex, hsmp, htype, hcompared⟩ := h
  unfold dxbc metal convert
  simp only [Shader.loadSrv_eq htex, Shader.loadSampler_eq hsmp,
    compareAddress_eq htype hcompared h1, offset_eq]
  have hkind : a.tex.srv.texture.kind = (metalTexture a.tex true .sample).kind :=
    srv_kind (fun h => absurd h h1) .sample
  simp only [createSampleCmpCommon, hkind]
  rw [← sampler_eq a.coordinates a.element]
  rfl

/-- `gather4` and `gather4_po` are converted to their meaning. -/
theorem convert_gather {a : Sampling} {offset : Fin 2 → TypedTerm .int} {channel : BitVec 32}
    (h : (gather a offset channel).Valid s) :
    convert s env (gather a offset channel).dxbc = (gather a offset channel).metal env := by
  obtain ⟨htex, hsmp, htype⟩ := h
  obtain ⟨o, haddress, hoffset⟩ := gatherAddress_eq htype offset
  unfold dxbc metal convert
  simp only [Shader.loadSrv_eq htex, Shader.loadSampler_eq hsmp, haddress]
  simp only [createGather, srv_kind (fun _ => rfl) .sample, hoffset]
  rw [← sampler_eq a.coordinates a.element]
  rfl

/-- `gather4_c` is converted to its meaning. -/
theorem convert_gatherCmp {a : Sampling} {offset : Fin 2 → TypedTerm .int}
    {reference : TypedTerm .float} (h : (gatherCmp a offset reference).Valid s) :
    convert s env (gatherCmp a offset reference).dxbc =
    (gatherCmp a offset reference).metal env := by
  obtain ⟨htex, hsmp, htype, hcompared⟩ := h
  obtain ⟨o, haddress, hoffset⟩ := gatherAddress_eq htype offset
  have haddress' : gatherCompareAddress a.tex.srv.logical (fun i => (a.coord i).val)
      ![(offset 0).val, (offset 1).val, .int 0, .int 0] a.tex.srv.metadata =
        some (⟨a.coordinates, a.element, isCube a.tex.resourceType⟩, o) := by
    rw [← haddress, srv_logical, hcompared]
    cases ht : a.tex.resourceType <;> rw [ht] at htype <;> cases htype <;> rfl
  have h1 : coordinateCount a.tex.resourceType ≠ 1 := by
    cases ht : a.tex.resourceType <;> rw [ht] at htype <;> cases htype <;> decide
  unfold dxbc metal convert
  simp only [Shader.loadSrv_eq htex, Shader.loadSampler_eq hsmp, haddress']
  have hkind : a.tex.srv.texture.kind = (metalTexture a.tex true .sample).kind :=
    srv_kind (fun h => absurd h h1) .sample
  simp only [createGatherCompare, hkind, hoffset]
  rw [← sampler_eq a.coordinates a.element]
  rfl

/-- The switch of the loads and stores reads the coordinates and the element of the texture. -/
theorem texelAddress_eq {type : ResourceType} (h : storable type = true) (depth : Bool)
    (coord : Fin 3 → TypedTerm .int) (level metadata : Term) :
    texelAddress (toAirResourceType type depth) (loadOperands coord level) metadata =
      some ⟨.vector (metalCoord (coordinateCount type) (coord 0) (coord 1) (coord 2)),
        texelElement type coord⟩ := by
  cases type <;> cases h <;> cases depth <;> rfl

theorem loadAddress_eq {type : ResourceType} (h : storable type = true ∨ multisampled type = true)
    (depth : Bool) (coord : Fin 3 → TypedTerm .int) (level metadata : Term) :
    loadAddress (toAirResourceType type depth) (loadOperands coord level) metadata =
      some ⟨.vector (metalCoord (coordinateCount type) (coord 0) (coord 1) (coord 2)),
        texelElement type coord⟩ := by
  rcases h with h | h
  · rw [← texelAddress_eq h depth coord level metadata]
    cases type <;> cases h <;> cases depth <;> rfl
  · cases type <;> cases h <;> cases depth <;> rfl

/-- The constant that `InstLoad` adds is the offset of the texture. -/
theorem addOffset_eq {type : ResourceType} (h : storable type = true ∨ multisampled type = true)
    (depth : Bool) (coord : Fin 3 → TypedTerm .int) (immediate : Fin 3 → BitVec 32) :
    addOffset (.vector (metalCoord (coordinateCount type) (coord 0) (coord 1) (coord 2)))
      (loadOffset (toAirResourceType type depth) (texelOffset type immediate)) =
        texel type coord immediate := by
  have hvec (coords : List Term) (offset : List (BitVec 32)) (zero : Prop) [Decidable zero]
      (hzero : (offset.all fun o => o = 0) = true ↔ zero) (offset' : List (BitVec 32))
      (hzip : List.zipWith (fun t o => Term.binary .add t (.int o)) coords offset =
        List.zipWith (fun t o => Term.binary .add t (.int o)) coords offset') :
      addOffset (.vector coords) offset = if zero then .vector coords
        else .vector (List.zipWith (fun t o => Term.binary .add t (.int o)) coords offset') := by
    unfold addOffset
    simp only [hzero, hzip]
  unfold texel
  rcases h with h | h <;> cases type <;> cases h <;> cases depth <;>
    exact hvec _ _ _ (by simp [loadOffset, toAirResourceType, texelOffset, offsetCount, isCube,
      coordinateCount]) _ rfl

/-- `ld` is converted to its meaning. -/
theorem convert_load {tex : TextureResource} {coord : Fin 3 → TypedTerm .int}
    {level : TypedTerm .int} {offset : Fin 3 → BitVec 32}
    (h : (load tex coord level offset).Valid s) :
    convert s env (load tex coord level offset).dxbc = (load tex coord level offset).metal env := by
  obtain ⟨htex, htype⟩ := h
  unfold dxbc metal convert
  simp only [Shader.loadSrv_eq htex, srv_logical, loadAddress_eq htype,
    addOffset_eq htype]
  obtain ⟨_, type, _, sampled, compared, _⟩ := tex
  rcases htype with htype | htype <;> cases type <;> cases htype <;> cases compared <;> rfl

/-- Without an offset the texel is where the coordinates say. -/
theorem texel_zero (type : ResourceType) (coord : Fin 3 → TypedTerm .int) :
    texel type coord (fun _ => 0) =
      .vector (metalCoord (coordinateCount type) (coord 0) (coord 1) (coord 2)) := by
  simp [texel, texelOffset]

/-- `ld_uav_typed` is converted to its meaning. -/
theorem convert_loadUav {tex : TextureResource} {coord : Fin 3 → TypedTerm .int}
    (h : (loadUav tex coord).Valid s) :
    convert s env (loadUav tex coord).dxbc = (loadUav tex coord).metal env := by
  obtain ⟨htex, htype⟩ := h
  have hcompared := s.uavs_compared tex htex
  unfold dxbc metal convert
  simp only [Shader.loadUav_eq htex, texel_zero, TextureResource.uav,
    texelAddress_eq htype, TextureResource.uavAccess]
  obtain ⟨_, type, _, _, compared, read, written, _⟩ := tex
  cases hcompared
  cases type <;> cases htype <;> cases read <;> cases written <;> rfl

/-- `store_uav_typed` is converted to its meaning. -/
theorem convert_store {tex : TextureResource} {coord : Fin 3 → TypedTerm .int} {type : ScalarType}
    {value : Fin 4 → TypedTerm type} (h : (store tex coord type value).Valid s) :
    convert s env (store tex coord type value).dxbc = (store tex coord type value).metal env := by
  obtain ⟨htex, htype, -⟩ := h
  have hcompared := s.uavs_compared tex htex
  unfold dxbc metal convert
  simp only [Shader.loadUav_eq htex, texel_zero, TextureResource.uav,
    texelAddress_eq htype]
  obtain ⟨_, type, _, _, compared, _⟩ := tex
  cases hcompared
  cases type <;> cases htype <;> rfl

/-- `dp2`, `dp3` and `dp4` are converted to their meaning. -/
theorem convert_dot {length : Fin 3} {a b : Fin 4 → TypedTerm .float} {vectors : Bool} :
    convert s env (dot length a b vectors).dxbc = (dot length a b vectors).metal env := by
  match length with
  | 0 => rfl
  | 1 => rfl
  | 2 => rfl

/-- `imm_atomic_alloc` and `imm_atomic_consume` are converted to their meaning. -/
theorem convert_updateCounter {buffer : TextureResource} {up : Bool}
    (h : (updateCounter buffer up).Valid s) :
    convert s env (updateCounter buffer up).dxbc = (updateCounter buffer up).metal env := by
  obtain ⟨hbuffer, htype, hcounter⟩ := h
  unfold dxbc metal convert
  cases up <;> simp only [Shader.loadCounter_eq hbuffer htype hcounter] <;> rfl

/-- `Converter` emits the call of D3D but for comparisons on 1D textures. -/
theorem convert_eq_metal {op : Operation} (h : op.Valid s) (h1 : ¬ op.Compares1D) :
    convert s env op.dxbc = op.metal env := by
  cases op with
  | sample => exact convert_sample h
  | sampleBias => exact convert_sampleBias h
  | sampleLevel => exact convert_sampleLevel h
  | sampleGrad => exact convert_sampleGrad h
  | sampleCmp => exact convert_sampleCmp h h1
  | sampleCmpLevelZero => exact convert_sampleCmpLevelZero h h1
  | gather => exact convert_gather h
  | gatherCmp => exact convert_gatherCmp h
  | load => exact convert_load h
  | loadUav => exact convert_loadUav h
  | store => exact convert_store h
  | dot => exact convert_dot
  | updateCounter => exact convert_updateCounter h

/-- A comparison on a 1D texture is dropped. -/
theorem convert_compares1D {op : Operation} (h : op.Valid s) (h1 : op.Compares1D)
    (env' : Environment) :
    convert s env op.dxbc ≠ op.metal env' := by
  have key {a : Sampling} (hcount : coordinateCount a.tex.resourceType = 1) :
      (textureInfo (metalTexture a.tex true .sample).kind).isDepth = true := by
    unfold metalTexture
    cases ht : a.tex.resourceType <;> rw [ht] at hcount <;> cases hcount <;> rfl
  cases op with
  | sampleCmp =>
    obtain ⟨htex, hsmp, -⟩ := h
    unfold dxbc metal convert
    simp only [Shader.loadSrv_eq htex, Shader.loadSampler_eq hsmp,
      compareAddress_one h1, createSampleCmpCommon, key h1, if_true]
    exact List.cons_ne_nil _ _ ∘ Eq.symm
  | sampleCmpLevelZero =>
    obtain ⟨htex, hsmp, -⟩ := h
    unfold dxbc metal convert
    simp only [Shader.loadSrv_eq htex, Shader.loadSampler_eq hsmp,
      compareAddress_one h1, createSampleCmpCommon, key h1, if_true]
    exact List.cons_ne_nil _ _ ∘ Eq.symm
  | _ => exact h1.elim

end Operation

end FrontEnds

end Dxmt
