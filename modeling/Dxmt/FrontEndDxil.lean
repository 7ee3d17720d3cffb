import Dxmt.FrontEndDxbc

/-!
# What `LowerDxilCall` emits, and where the front ends agree

Result: `meets_iff_alike`. Both front ends emit the call of D3D, or the one of DXIL rejects the
operation, exactly for the operations of `Operation.Alike`.
-/

namespace Dxmt

namespace FrontEnds

open AirBuilder

namespace Operation

variable {s : Shader} {env : Environment}

/-- The coordinates of a sampling operation are those of the texture. -/
theorem textureCoord_sampling {a : Sampling} (h : sampleable a.tex.resourceType = true)
    (opcode : DxilOpcode) (rest : List Operand) :
    textureCoord (a.tex.translation .srv) ⟨opcode, samplingOperands a ++ rest⟩ 3 true =
    a.coordinates := by
  obtain ⟨⟨_, type, _⟩, _, coord⟩ := a
  have hcoord (i : Fin 4) : (coord i).val.type = .float := (coord i).property
  cases type <;> cases h <;>
    simp [textureCoord, DxilTranslationResourceInfo.isTexture1D,
      DxilTranslationResourceInfo.resourceType,
        DxilTranslationResourceInfo.textureCoordinateCount, TextureResource.translation,
          resourceKindOf,
      toResourceType, vectorFromOperands, DxilCall.componentFromOperand, DxilCall.operandValue,
      samplingOperands, padded, operandCount, coordinateCount, arrayCoordinate,
      Sampling.coordinates, metalCoord, toFloating, castValue, hcoord, List.range_succ]

/-- The array element of DXIL: the coordinate is cut off to an integer, neither rounded nor clamped.
-/
def cutElement (a : Sampling) : Arg :=
  match arrayCoordinate a.tex.resourceType with
  | some i => .scalar (.unary .fpToUI (a.coord i).val)
  | none => .null

theorem textureArrayIndex_sampling {a : Sampling} (h : sampleable a.tex.resourceType = true)
    (opcode : DxilOpcode) (rest : List Operand) :
    textureArrayIndex (a.tex.translation .srv) ⟨opcode, samplingOperands a ++ rest⟩ 3 true =
      cutElement a := by
  unfold cutElement
  obtain ⟨⟨_, type, _⟩, _, coord⟩ := a
  have hcoord (i : Fin 4) : (coord i).val.type = .float := (coord i).property
  cases type <;> cases h <;>
    simp [textureArrayIndex, DxilTranslationResourceInfo.resourceType, TextureResource.translation,
      resourceKindOf, toResourceType, DxilCall.componentFromOperand, DxilCall.operandValue,
      samplingOperands, padded, operandCount, coordinateCount, arrayCoordinate, hcoord]

/-- The coordinates of a load or store. -/
theorem textureCoord_texel {tex : TextureResource} {coord : Fin 3 → TypedTerm .int}
    (h : storable tex.resourceType = true ∨ multisampled tex.resourceType = true) {call : DxilCall}
    {first : Nat} (hcall : ∀ i : Fin 3, i.val < operandCount tex.resourceType →
      call.componentFromOperand (first + i.val) = (coord i).val)
    (resourceClass : DxilTranslationResourceClass) :
    textureCoord (tex.translation resourceClass) call first false =
      .vector (metalCoord (coordinateCount tex.resourceType) (coord 0) (coord 1) (coord 2)) := by
  obtain ⟨_, type, _⟩ := tex
  have hcoord (i : Fin 3) : (coord i).val.type = .int := (coord i).property
  rcases h with h | h <;> cases type <;> cases h <;>
    simp [operandCount, coordinateCount, arrayCoordinate, Fin.forall_fin_succ] at hcall <;>
    simp [textureCoord, DxilTranslationResourceInfo.isTexture1D,
      DxilTranslationResourceInfo.resourceType,
        DxilTranslationResourceInfo.textureCoordinateCount, TextureResource.translation,
          resourceKindOf,
      toResourceType, vectorFromOperands, coordinateCount, metalCoord, toFloating, castValue,
        hcoord, hcall,
      List.range_succ]

theorem textureArrayIndex_texel {tex : TextureResource} {coord : Fin 3 → TypedTerm .int}
    (h : storable tex.resourceType = true ∨ multisampled tex.resourceType = true) {call : DxilCall}
    {first : Nat} (hcall : ∀ i : Fin 3, i.val < operandCount tex.resourceType →
      call.componentFromOperand (first + i.val) = (coord i).val)
    (resourceClass : DxilTranslationResourceClass) :
    textureArrayIndex (tex.translation resourceClass) call first false =
      texelElement tex.resourceType coord := by
  obtain ⟨_, type, _⟩ := tex
  have hcoord (i : Fin 3) : (coord i).val.type = .int := (coord i).property
  rcases h with h | h <;> cases type <;> cases h <;>
    simp [operandCount, coordinateCount, arrayCoordinate, Fin.forall_fin_succ] at hcall <;>
    simp [textureArrayIndex, DxilTranslationResourceInfo.resourceType, TextureResource.translation,
      resourceKindOf, toResourceType, texelElement, castValue, hcoord, hcall]

/-- The texture that the front end of DXIL names: one of floats, with depth where it is marked. -/
def dxilTexture (tex : TextureResource) (access : MemoryAccess) : Texture :=
  ⟨metalKind tex.resourceType
    (if coordinateCount tex.resourceType = 1 then false else tex.marks.compared), .float, access⟩

/-- What the DXIL front end builds of a resource. -/
theorem buildTexture_eq (tex : TextureResource) (resourceClass : DxilTranslationResourceClass)
    (access : MemoryAccess) :
    (tex.translation resourceClass).buildTexture access = dxilTexture tex access := by
  unfold DxilTranslationResourceInfo.buildTexture DxilTranslationResourceInfo.resourceType
      dxilTexture
  rw [← kind_eq tex.resourceType tex.marks.compared fun _ => rfl]
  simp only [TextureResource.translation, toResourceType_resourceKindOf]
  rfl

/-- Where the kind of a texture says whether it has depth, the mark has to be right. -/
theorem kind_dxilTexture_iff {tex : TextureResource} {access access' : MemoryAccess} :
    (dxilTexture tex access).kind = (metalTexture tex false access').kind ↔
      (coordinateCount tex.resourceType = 2 ∨ isCube tex.resourceType = true →
        tex.marks.compared = tex.compared) := by
  unfold dxilTexture metalTexture
  dsimp only
  cases tex.resourceType <;> cases tex.marks.compared <;> cases tex.compared <;> decide

/-- But for 1D textures it does not matter whether the operation compares. -/
theorem metalTexture_compares {tex : TextureResource} (h1 : coordinateCount tex.resourceType ≠ 1)
    (access : MemoryAccess) : metalTexture tex true access = metalTexture tex false access := by
  unfold metalTexture
  rw [if_neg h1, if_neg h1]

/-- Both front ends build one texture exactly where its description agrees. -/
theorem dxilTexture_eq_iff {tex : TextureResource} {access : MemoryAccess} :
    dxilTexture tex access = metalTexture tex false access ↔
      tex.scalerType = .float ∧ (coordinateCount tex.resourceType = 2 ∨
        isCube tex.resourceType = true → tex.marks.compared = tex.compared) := by
  rw [← @kind_dxilTexture_iff tex access access]
  constructor
  · intro h
    exact ⟨(congrArg Texture.sampleType h).symm, congrArg Texture.kind h⟩
  · rintro ⟨htype, hkind⟩
    unfold metalTexture at hkind ⊢
    rw [htype]
    exact congrArg (fun kind => (⟨kind, .float, access⟩ : Texture)) hkind

section Lower

variable {a : Sampling} {opcode : DxilOpcode} {rest : List Operand}

/-- A sampling operation gets to `lowerSample` with its texture and its sampler. -/
theorem lower_sampling (htex : a.tex ∈ s.srvs) (hsmp : a.smp ∈ s.samplers)
    (hopcode : opcode.isSample = true) :
    lowerDxilCall s env ⟨opcode, samplingOperands a ++ rest⟩ =
      lowerSample ⟨opcode, samplingOperands a ++ rest⟩ a.tex.handle
        (.tableField .handle a.smp.argIndex)
        (a.tex.translation .srv) := by
  have htexture : DxilCall.resolveHandle ⟨opcode, samplingOperands a ++ rest⟩ 1 =
      (.srv, a.tex.rangeId) := rfl
  have hsampler : DxilCall.resolveHandle ⟨opcode, samplingOperands a ++ rest⟩ 2 =
    (.sampler, a.smp.rangeId) := rfl
  unfold lowerDxilCall
  cases opcode <;> cases hopcode <;>
    simp only [htexture, hsampler, Shader.getTextureHandle_srv htex,
      Shader.getSamplerHandle_eq hsmp]

/-- A gather gets to `lowerGather`. -/
theorem lower_gathering (htex : a.tex ∈ s.srvs) (hsmp : a.smp ∈ s.samplers)
    (hopcode : opcode = .textureGather ∨ opcode = .textureGatherCmp) :
    lowerDxilCall s env ⟨opcode, samplingOperands a ++ rest⟩ =
      lowerGather ⟨opcode, samplingOperands a ++ rest⟩ a.tex.handle
        (.tableField .handle a.smp.argIndex)
        (a.tex.translation .srv) := by
  have htexture : DxilCall.resolveHandle ⟨opcode, samplingOperands a ++ rest⟩ 1 =
      (.srv, a.tex.rangeId) := rfl
  have hsampler : DxilCall.resolveHandle ⟨opcode, samplingOperands a ++ rest⟩ 2 =
    (.sampler, a.smp.rangeId) := rfl
  unfold lowerDxilCall
  rcases hopcode with rfl | rfl <;>
    simp only [htexture, hsampler, Shader.getTextureHandle_srv htex,
      Shader.getSamplerHandle_eq hsmp]

end Lower

section Arguments

variable {o o' : AIRBuilderOptions} {t t' : Texture} {handle handle' sampler sampler' : Term}
  {coord coord' index index' offset offset' x x' y y' : Arg} {b b' : Bool}

/-- Equal calls have equal last arguments. -/
theorem createSampleCommon_args
    (h : createSampleCommon o t handle sampler coord index offset b x y =
      createSampleCommon o' t' handle' sampler' coord' index' offset' b' x' y') : x =
        x' ∧ y = y' := by
  have hargs := (Call.mk.inj (List.cons.inj h).1).2
  have hlast := List.append_inj_right' hargs rfl
  have htail := (List.cons.inj hlast).2
  exact ⟨(List.cons.inj htail).1, (List.cons.inj (List.cons.inj htail).2).1⟩

theorem createSampleCmpCommon_args {r r' : Arg} (hdepth : (textureInfo t.kind).isDepth = true)
    (hdepth' : (textureInfo t'.kind).isDepth = true)
    (h : createSampleCmpCommon o t handle sampler coord index r offset b x y =
      createSampleCmpCommon o' t' handle' sampler' coord' index' r' offset' b' x' y') :
    x = x' ∧ y = y' := by
  unfold createSampleCmpCommon at h
  rw [if_pos hdepth, if_pos hdepth'] at h
  have hargs := (Call.mk.inj (List.cons.inj h).1).2
  have hlast := List.append_inj_right' hargs rfl
  have htail := (List.cons.inj hlast).2
  exact ⟨(List.cons.inj htail).1, (List.cons.inj (List.cons.inj htail).2).1⟩

theorem length_pushOffset (kind : ResourceKind) (offset offset' : Arg) :
    (pushOffset kind offset).length = (pushOffset kind offset').length := by
  cases kind <;> rfl

theorem length_pushGatherOffset (kind : ResourceKind) (offset offset' : Arg) :
    (pushGatherOffset kind offset).length = (pushGatherOffset kind offset').length := by
  cases kind <;> rfl

theorem createSampleGrad_minLOD {dx dx' dy dy' : Arg} {offset offset' : Fin 3 → BitVec 32}
    (h : createSampleGrad o t handle sampler coord index dx dy x offset =
      createSampleGrad o' t' handle' sampler' coord' index' dx' dy' x' offset') : x = x' := by
  obtain ⟨hfunction, hargs⟩ := Call.mk.inj (List.cons.inj h).1
  have hkind := (Function.sampleGrad.inj hfunction).1
  rw [hkind] at hargs
  have hfront := List.append_inj_left' hargs rfl
  have hlast := List.append_inj_right' (List.append_inj_left' hfront (length_pushOffset _ _ _)) rfl
  exact (List.cons.inj (List.cons.inj (List.cons.inj hlast).2).2).1

theorem createGatherCompare_reference (hdepth : (textureInfo t.kind).isDepth = true)
    (hdepth' : (textureInfo t'.kind).isDepth = true)
    (h : createGatherCompare o t handle sampler coord index x offset =
      createGatherCompare o' t' handle' sampler' coord' index' x' offset') : x = x' := by
  unfold createGatherCompare at h
  rw [if_pos hdepth, if_pos hdepth'] at h
  obtain ⟨hfunction, hargs⟩ := Call.mk.inj (List.cons.inj h).1
  have hkind := Function.gatherCompare.inj hfunction
  rw [hkind] at hargs
  have hfront := List.append_inj_left' hargs rfl
  have hlast :=
    List.append_inj_right' (List.append_inj_left' hfront (length_pushGatherOffset _ _ _)) rfl
  exact (List.cons.inj hlast).1

end Arguments

/-! ## Where the two agree -/

end Operation

/-- The environment without the replacement of NaNs, which is not D3D's. -/
def Environment.plain (env : Environment) : Environment := { env with options := {} }

namespace Operation

/-- What DXIL is lowered to, unless it is rejected, is the call of D3D. -/
def Lowers (s : Shader) (env : Environment) (op : Operation) : Prop :=
  ∀ calls, lowerDxilCall s env op.dxil = .ok calls → calls = op.metal env.plain

/-- Both front ends emit the call of D3D, or the one of DXIL rejects the operation. -/
def Meets (s : Shader) (env : Environment) (op : Operation) : Prop :=
  convert s env op.dxbc = op.metal env.plain ∧ op.Lowers s env

/-- The operations that the front end of DXIL lowers with all their operands, where the texture is
one of floats and the mark that makes it a depth texture is right: comparisons with level zero and
gathers of the first channel on 2D textures without an offset, loads without an offset from textures
that are not sampled, stores to textures that are only written, and dot products of vectors. Where
the mark is missing it rejects comparisons and updates of counters. -/
def Alike (env : Environment) : Operation → Prop
  | sampleCmp a _ _ _ =>
    env.options.sampleNaNToZero = false ∧ coordinateCount a.tex.resourceType ≠ 1 ∧
      a.tex.marks.compared = false
  | sampleCmpLevelZero a offset _ =>
    env.options.sampleNaNToZero = false ∧ coordinateCount a.tex.resourceType ≠ 1 ∧
      (a.tex.marks.compared = true → a.tex.resourceType = .texture2D ∧ a.tex.scalerType = .float ∧
        offset 0 = 0 ∧ offset 1 = 0)
  | gather a offset channel =>
    (env.options.sampleNaNToZero = false ∧ a.tex.resourceType = .texture2D ∧
        (offset 0).val = .int channel ∧ (offset 1).val = .int channel ∧
        (a.tex.compared = false → channel = 0)) ∧
      a.tex.scalerType = .float ∧ a.tex.marks.compared = a.tex.compared
  | gatherCmp a _ _ => env.options.sampleNaNToZero = false ∧ a.tex.marks.compared = false
  | load tex _ _ offset =>
    (storable tex.resourceType = true ∧ tex.sampled = false ∧
        ∀ i : Fin 3, i.val < offsetCount tex.resourceType → offset i = 0) ∧
      tex.scalerType = .float ∧
        (coordinateCount tex.resourceType = 2 → tex.marks.compared = tex.compared)
  | store tex _ _ _ =>
    (tex.read = false ∧ (tex.globalCoherent && env.supportsMemoryCoherency) = false) ∧
      tex.scalerType = .float ∧ (coordinateCount tex.resourceType = 2 → tex.marks.compared = false)
  | dot _ _ _ vectors => vectors = true
  | updateCounter buffer _ => buffer.marks.counter = false
  | _ => False

/-- The DXIL front end meets the meaning exactly where it emits its calls. -/
theorem lowers_iff {op : Operation} {calls : List Call}
    (h : lowerDxilCall s env op.dxil = .ok calls) :
    op.Lowers s env ↔ calls = op.metal env.plain :=
  ⟨fun hl => hl calls h, fun he _ h' => Except.ok.inj (h.symm.trans h') ▸ he⟩

/-- A plain sample loses its clamp. -/
theorem not_lowers_sample {a : Sampling} {offset : Fin 3 → BitVec 32}
    {clamp : Option (TypedTerm .float)}
    (h : (sample a offset clamp).Valid s) : ¬ (sample a offset clamp).Lowers s env := by
  obtain ⟨htex, hsmp, -⟩ := h
  rw [lowers_iff (lower_sampling htex hsmp rfl)]
  intro he
  have hbias := (createSampleCommon_args he).1
  injection hbias with hbias
  cases hbias

/-- The operand that is taken for the bias or the level is an offset. -/
theorem operandValue_offset {a : Sampling} {offset : Fin 3 → BitVec 32} {opcode : DxilOpcode}
    {rest : List Operand} :
    ∃ t : Term, DxilCall.operandValue ⟨opcode, samplingOperands a ++ (offsetOperands a offset ++
      rest)⟩ 8 =
      .scalar t ∧ t.type = .int := by
  by_cases h : 1 < offsetCount a.tex.resourceType
  · exact ⟨.int (offset 1), by simp [DxilCall.operandValue, samplingOperands, offsetOperands,
      padded, h], rfl⟩
  · exact ⟨.undef .int, by simp [DxilCall.operandValue, samplingOperands, offsetOperands, padded,
      h], rfl⟩

theorem not_lowers_sampleBias {a : Sampling} {offset : Fin 3 → BitVec 32} {bias : TypedTerm .float}
    {clamp : Option (TypedTerm .float)} (h : (sampleBias a offset bias clamp).Valid s) :
    ¬ (sampleBias a offset bias clamp).Lowers s env := by
  obtain ⟨htex, hsmp, -⟩ := h
  rw [lowers_iff (lower_sampling htex hsmp rfl)]
  intro he
  obtain ⟨t, ht, htype⟩ := operandValue_offset (a := a)
  have hbias := ht.symm.trans (createSampleCommon_args he).1
  injection hbias with hbias
  rw [hbias] at htype
  cases htype

theorem not_lowers_sampleLevel {a : Sampling} {offset : Fin 3 → BitVec 32} {lod : TypedTerm .float}
    (h : (sampleLevel a offset lod).Valid s) : ¬ (sampleLevel a offset lod).Lowers s env := by
  obtain ⟨htex, hsmp, -⟩ := h
  rw [lowers_iff (lower_sampling htex hsmp rfl)]
  intro he
  obtain ⟨t, ht, htype⟩ := operandValue_offset (a := a)
  have hlod := ht.symm.trans (createSampleCommon_args he).1
  injection hlod with hlod
  rw [hlod, lod.property] at htype
  cases htype

theorem clamp_ne_float0 (a : Sampling) (clamp : Option (TypedTerm .float)) :
    a.clamp clamp ≠ .float0 := by
  cases clamp <;> exact fun h => by cases h

/-- A gradient sample loses its clamp. -/
theorem not_lowers_sampleGrad {a : Sampling} {offset : Fin 3 → BitVec 32}
    {ddx ddy : Fin 3 → TypedTerm .float} {clamp : Option (TypedTerm .float)}
    (h : (sampleGrad a offset ddx ddy clamp).Valid s) :
    ¬ (sampleGrad a offset ddx ddy clamp).Lowers s env := by
  obtain ⟨htex, hsmp, -⟩ := h
  rw [lowers_iff (lower_sampling htex hsmp rfl)]
  intro he
  have hclamp := createSampleGrad_minLOD he
  injection hclamp with hclamp
  exact clamp_ne_float0 a clamp hclamp.symm

theorem isDepthTexture_eq (t : Texture) : isDepthTexture t = (textureInfo t.kind).isDepth := by
  obtain ⟨kind, _, _⟩ := t
  cases kind <;> rfl

/-- A texture that is compared is a depth texture. -/
theorem isDepth_metalTexture {tex : TextureResource} (h : comparable tex.resourceType = true)
    (hcompared : tex.compared = true) (access : MemoryAccess) :
    (textureInfo (metalTexture tex true access).kind).isDepth = true := by
  unfold metalTexture
  rw [hcompared, ite_self]
  cases ht : tex.resourceType <;> rw [ht] at h <;> first | rfl | cases h

/-- A texture that can be compared has depth where it is marked. -/
theorem isDepthTexture_dxilTexture {tex : TextureResource} (h : comparable tex.resourceType = true)
    (h1 : coordinateCount tex.resourceType ≠ 1) (access : MemoryAccess) :
    isDepthTexture (dxilTexture tex access) = tex.marks.compared := by
  unfold dxilTexture
  cases ht : tex.resourceType <;> rw [ht] at h h1 <;>
    first | (cases h; done) | exact absurd rfl h1 | (cases tex.marks.compared <;> rfl)

/-- What the DXIL front end emits for a comparison. -/
theorem lower_sampleCmp {a : Sampling} {offset : Fin 3 → BitVec 32} {reference : TypedTerm .float}
    {clamp : Option (TypedTerm .float)} (h : (sampleCmp a offset reference clamp).Valid s)
    (h1 : coordinateCount a.tex.resourceType ≠ 1) :
    lowerDxilCall s env (sampleCmp a offset reference clamp).dxil =
      if a.tex.marks.compared then
        .ok (createSampleCmpCommon {} (dxilTexture a.tex .sample) a.tex.handle
          (.tableField .handle a.smp.argIndex) a.coordinates (cutElement a) (.scalar reference.val)
          (getOffset (dxilTexture a.tex .sample).kind fun _ => 0) false (.scalar .float0)
          (.scalar .float0))
      else .error "SampleCmp requires a depth texture resource" := by
  obtain ⟨htex, hsmp, htype, -⟩ := h
  have hreference : DxilCall.operandValue (sampleCmp a offset reference clamp).dxil 10 =
      .scalar reference.val := by
    simp [dxil, DxilCall.operandValue, samplingOperands, offsetOperands, operand, padded]
  unfold dxil at hreference ⊢
  dsimp only at hreference ⊢
  rw [lower_sampling htex hsmp rfl]
  simp only [lowerSample, buildTexture_eq, isDepthTexture_dxilTexture htype h1, hreference,
    textureCoord_sampling (sampleable_of_comparable htype),
    textureArrayIndex_sampling (sampleable_of_comparable htype)]

theorem lower_sampleCmpLevelZero {a : Sampling} {offset : Fin 3 → BitVec 32}
    {reference : TypedTerm .float} (h : (sampleCmpLevelZero a offset reference).Valid s)
    (h1 : coordinateCount a.tex.resourceType ≠ 1) :
    lowerDxilCall s env (sampleCmpLevelZero a offset reference).dxil =
      if a.tex.marks.compared then
        .ok (createSampleCmpCommon {} (dxilTexture a.tex .sample) a.tex.handle
          (.tableField .handle a.smp.argIndex) a.coordinates (cutElement a) (.scalar reference.val)
          (getOffset (dxilTexture a.tex .sample).kind fun _ => 0) true (.scalar .float0)
          (.scalar .float0))
      else .error "SampleCmp requires a depth texture resource" := by
  obtain ⟨htex, hsmp, htype, -⟩ := h
  have hreference : DxilCall.operandValue (sampleCmpLevelZero a offset reference).dxil 10 =
      .scalar reference.val := by
    simp [dxil, DxilCall.operandValue, samplingOperands, offsetOperands, operand, padded]
  unfold dxil at hreference ⊢
  dsimp only at hreference ⊢
  rw [lower_sampling htex hsmp rfl]
  simp only [lowerSample, buildTexture_eq, isDepthTexture_dxilTexture htype h1, hreference,
    textureCoord_sampling (sampleable_of_comparable htype),
    textureArrayIndex_sampling (sampleable_of_comparable htype)]

theorem gather_comparable {type : ResourceType} (h : gatherable type = true) :
    comparable type = true ∧ coordinateCount type ≠ 1 := by
  cases type <;> cases h <;> exact ⟨rfl, by decide⟩

theorem lower_gatherCmp {a : Sampling} {offset : Fin 2 → TypedTerm .int}
    {reference : TypedTerm .float} (h : (gatherCmp a offset reference).Valid s) :
    ∃ o, lowerDxilCall s env (gatherCmp a offset reference).dxil =
      if a.tex.marks.compared then
        .ok (createGatherCompare {} (dxilTexture a.tex .sample) a.tex.handle
          (.tableField .handle a.smp.argIndex) a.coordinates (cutElement a) .null o)
      else .error "TextureGatherCmp requires a depth texture resource" := by
  obtain ⟨htex, hsmp, htype, -⟩ := h
  obtain ⟨hcomparable, h1⟩ := gather_comparable htype
  have hreference : DxilCall.operandValue (gatherCmp a offset reference).dxil 11 = .null := by
    simp [dxil, DxilCall.operandValue, samplingOperands, gatherOffsetOperands, padded]
  unfold dxil at hreference ⊢
  dsimp only at hreference ⊢
  rw [lower_gathering htex hsmp (Or.inr rfl)]
  simp only [lowerGather, buildTexture_eq, isDepthTexture_dxilTexture hcomparable h1, hreference,
    textureCoord_sampling (sampleable_of_comparable hcomparable),
    textureArrayIndex_sampling (sampleable_of_comparable hcomparable)]
  exact ⟨_, rfl⟩

/-- What the DXIL front end emits for a gather. -/
theorem lower_gather {a : Sampling} {offset : Fin 2 → TypedTerm .int} {channel : BitVec 32}
    (h : (gather a offset channel).Valid s) :
    ∃ immediate : Fin 3 → BitVec 32,
      (isCube a.tex.resourceType = false →
        immediate 0 = ((offset 1).val.constant?).getD 0 ∧ immediate 1 = channel) ∧
      lowerDxilCall s env (gather a offset channel).dxil =
        .ok (createGather {} (dxilTexture a.tex .sample) a.tex.handle
          (.tableField .handle a.smp.argIndex) a.coordinates (cutElement a)
          (getOffset (dxilTexture a.tex .sample).kind immediate) (argInt 0)) := by
  obtain ⟨htex, hsmp, htype⟩ := h
  obtain ⟨hcomparable, -⟩ := gather_comparable htype
  have hcomponent : DxilCall.constantOperand (gather a offset channel).dxil 10 = none := by
    simp [dxil, DxilCall.constantOperand, DxilCall.operandValue, samplingOperands,
      gatherOffsetOperands, padded]
  have h8 (hcube : isCube a.tex.resourceType = false) :
      DxilCall.constantOperand (gather a offset channel).dxil 8 = (offset 1).val.constant? := by
    have hcount : 1 < offsetCount a.tex.resourceType := by
      cases ht : a.tex.resourceType <;> rw [ht] at htype hcube <;>
        first | (cases htype; done) | (cases hcube; done) | decide
    simp [dxil, DxilCall.constantOperand, DxilCall.operandValue, samplingOperands,
      gatherOffsetOperands, padded, hcount]
  have h9 : DxilCall.constantOperand (gather a offset channel).dxil 9 = some channel := by
    simp [dxil, DxilCall.constantOperand, DxilCall.operandValue, samplingOperands,
      gatherOffsetOperands, padded, operand, Term.constant?]
  unfold dxil at hcomponent h8 h9 ⊢
  dsimp only at hcomponent h8 h9 ⊢
  rw [lower_gathering htex hsmp (Or.inl rfl)]
  simp only [lowerGather, hcomponent, textureCoord_sampling (sampleable_of_comparable hcomparable),
    textureArrayIndex_sampling (sampleable_of_comparable hcomparable), buildTexture_eq]
  refine ⟨_, fun hcube => ?_, rfl⟩
  simp [h8 hcube, h9]

theorem isDepth_dxilTexture {tex : TextureResource} (h : comparable tex.resourceType = true)
    (h1 : coordinateCount tex.resourceType ≠ 1) (hmark : tex.marks.compared = true)
    (access : MemoryAccess) : (textureInfo (dxilTexture tex access).kind).isDepth = true :=
  (isDepthTexture_eq _).symm.trans ((isDepthTexture_dxilTexture h h1 access).trans hmark)

/-- An operation that is rejected is lowered to nothing. -/
theorem lowers_of_error {op : Operation} {reason : Unsupported}
    (h : lowerDxilCall s env op.dxil = .error reason) : op.Lowers s env := by
  intro calls hok
  rw [h] at hok
  cases hok

/-- A texture is known by its kind, its type and its access. -/
theorem dxilTexture_eq {tex : TextureResource} {compares : Bool} {access access' : MemoryAccess}
    (hkind : (dxilTexture tex access).kind = (metalTexture tex compares access').kind)
    (htype : (dxilTexture tex access).sampleType = (metalTexture tex compares access').sampleType) :
    dxilTexture tex access = metalTexture tex compares access := by
  unfold dxilTexture metalTexture at *
  exact congrArg₂ (fun kind type => (⟨kind, type, access⟩ : Texture)) hkind htype

/-- A coordinate whose NaNs are replaced is another one. -/
theorem ne_nanToZero (t : Term) : t ≠ .unary .nanToZero t := by
  intro h
  have hsize := congrArg sizeOf h
  simp only [Term.unary.sizeOf_spec] at hsize
  omega

theorem coordinate_eq_iff (options : AIRBuilderOptions) (t : Term) (ts : List Term) :
    coordinate options (.vector (t :: ts)) = .vector (t :: ts) ↔
      options.sampleNaNToZero = false := by
  unfold coordinate
  cases options.sampleNaNToZero
  · simp
  · simpa [Arg.map] using fun h => absurd h.symm (ne_nanToZero t)

theorem pushSampled_inj {o o' : AIRBuilderOptions} {kind : ResourceKind}
    {handle sampler sampler' : Term} {coord coord' index index' : Arg} :
    pushSampled o kind handle sampler coord index =
      pushSampled o' kind handle sampler' coord' index' ↔
      sampler = sampler' ∧ coordinate o coord = coordinate o' coord' ∧
        ((textureInfo kind).isArray = true → index = index') := by
  cases harray : (textureInfo kind).isArray <;> cases hdepth : (textureInfo kind).isDepth <;>
    simp [pushSampled, pushIf, harray, hdepth]

theorem createSampleCmpCommon_inj {o o' : AIRBuilderOptions} {t : Texture}
    {handle sampler sampler' : Term} {coord coord' index index' r offset offset' x y : Arg}
    {b : Bool} (hdepth : (textureInfo t.kind).isDepth = true) :
    createSampleCmpCommon o t handle sampler coord index r offset b x y =
        createSampleCmpCommon o' t handle sampler' coord' index' r offset' b x y ↔
      (sampler = sampler' ∧ coordinate o coord = coordinate o' coord' ∧
        ((textureInfo t.kind).isArray = true → index = index')) ∧
      pushOffset t.kind offset = pushOffset t.kind offset' := by
  rw [← pushSampled_inj]
  unfold createSampleCmpCommon
  rw [if_pos hdepth, if_pos hdepth]
  constructor
  · intro h
    have hargs := List.append_inj_left' (Call.mk.inj (List.cons.inj h).1).2 rfl
    have hfront := List.append_inj_left' hargs (length_pushOffset _ _ _)
    exact ⟨List.append_inj_left' hfront rfl, List.append_inj_right' hargs (length_pushOffset _ _ _)⟩
  · rintro ⟨hsampled, hoffset⟩
    rw [hsampled, hoffset]

theorem createGatherCompare_inj {o o' : AIRBuilderOptions} {t : Texture} {handle sampler : Term}
    {coord coord' index r offset : Arg} (hdepth : (textureInfo t.kind).isDepth = true) :
    createGatherCompare o t handle sampler coord index r offset =
        createGatherCompare o' t handle sampler coord' index r offset ↔
      coordinate o coord = coordinate o' coord' := by
  have hpush := @pushSampled_inj o o' t.kind handle sampler sampler coord coord' index index
  simp only [true_and, implies_true, and_true] at hpush
  rw [← hpush]
  unfold createGatherCompare
  rw [if_pos hdepth, if_pos hdepth]
  constructor
  · intro h
    have hargs := List.append_inj_left' (Call.mk.inj (List.cons.inj h).1).2 rfl
    exact List.append_inj_left' (List.append_inj_left' hargs rfl) rfl
  · intro hsampled
    rw [hsampled]

theorem createGather_inj {o o' : AIRBuilderOptions} {t : Texture} {handle sampler sampler' : Term}
    {coord coord' index index' offset offset' x x' : Arg} :
    createGather o t handle sampler coord index offset x =
        createGather o' t handle sampler' coord' index' offset' x' ↔
      (sampler = sampler' ∧ coordinate o coord = coordinate o' coord' ∧
        ((textureInfo t.kind).isArray = true → index = index')) ∧
      pushGatherOffset t.kind offset = pushGatherOffset t.kind offset' ∧
      ((textureInfo t.kind).isDepth = false → x = x') := by
  rw [← pushSampled_inj]
  unfold createGather
  constructor
  · intro h
    have hargs := List.append_inj_left' (Call.mk.inj (List.cons.inj h).1).2 rfl
    have hlength : (pushIf (!(textureInfo t.kind).isDepth) [x]).length =
        (pushIf (!(textureInfo t.kind).isDepth) [x']).length := by
      cases (textureInfo t.kind).isDepth <;> rfl
    have hfront := List.append_inj_left' hargs hlength
    refine ⟨List.append_inj_left' hfront (length_pushGatherOffset _ _ _),
      List.append_inj_right' hfront (length_pushGatherOffset _ _ _), fun hdepth => ?_⟩
    have hlast := List.append_inj_right' hargs hlength
    rw [hdepth] at hlast
    exact (List.cons.inj hlast).1
  · rintro ⟨hsampled, hoffset, hx⟩
    rw [hsampled, hoffset]
    cases hdepth : (textureInfo t.kind).isDepth
    · rw [hx hdepth]
    · rfl

/-- The sampler is right where the type is no cube. -/
theorem sampler_eq_iff {a : Sampling} :
    Term.tableField .handle a.smp.argIndex = a.sampler ↔ isCube a.tex.resourceType = false := by
  unfold Sampling.sampler
  cases isCube a.tex.resourceType
  · simp
  · simpa using a.smp.cube_ne

/-- DXIL never gets the element of an array. -/
theorem cutElement_eq_iff {a : Sampling} :
    cutElement a = a.element ↔ arrayCoordinate a.tex.resourceType = none := by
  unfold cutElement Sampling.element
  cases arrayCoordinate a.tex.resourceType with
  | none => exact iff_of_true rfl rfl
  | some i => exact iff_of_false (fun h => by cases h) (fun h => by cases h)

/-- The coordinates are right where no NaN is replaced. -/
theorem coordinates_eq_iff (options : AIRBuilderOptions) (a : Sampling) :
    coordinate options a.coordinates = coordinate {} a.coordinates ↔
      options.sampleNaNToZero = false := by
  unfold Sampling.coordinates
  obtain ⟨t, ts, hcons⟩ : ∃ t ts, metalCoord (coordinateCount a.tex.resourceType) (a.coord 0)
      (a.coord 1)
      (a.coord 2) = t :: ts := by
    unfold metalCoord
    split <;> exact ⟨_, _, rfl⟩
  rw [hcons, (coordinate_eq_iff {} t ts).mpr rfl]
  exact coordinate_eq_iff options t ts

theorem isArray_metalKind (type : ResourceType) (depth : Bool) :
    (textureInfo (metalKind type depth)).isArray = (arrayCoordinate type).isSome := by
  cases type <;> cases depth <;> rfl

/-- A comparison on a texture that is not marked is rejected. -/
theorem meets_sampleCmp {a : Sampling} {offset : Fin 3 → BitVec 32} {reference : TypedTerm .float}
    {clamp : Option (TypedTerm .float)} (h : (sampleCmp a offset reference clamp).Valid s) :
    (sampleCmp a offset reference clamp).Meets s env ↔
      (sampleCmp a offset reference clamp).Alike env := by
  by_cases h1 : coordinateCount a.tex.resourceType = 1
  · exact iff_of_false (fun hm => convert_compares1D h h1 _ hm.1) fun hal => hal.2.1 h1
  · have hlower : lowerDxilCall s env (sampleCmp a offset reference clamp).dxil = _ :=
      lower_sampleCmp h h1
    have hdepth := isDepth_metalTexture h.2.2.1 h.2.2.2 .sample
    cases hmark : a.tex.marks.compared with
    | true =>
      refine iff_of_false ?_ fun hal => Bool.false_ne_true (hal.2.2.symm.trans hmark)
      rintro ⟨-, hlowers⟩
      rw [if_pos hmark] at hlower
      have he := (lowers_iff hlower).mp hlowers
      have hbias := (createSampleCmpCommon_args (isDepth_dxilTexture h.2.2.1 h1 hmark .sample)
        hdepth he).1
      injection hbias with hbias
      cases hbias
    | false =>
      rw [if_neg (by rw [hmark]; exact Bool.false_ne_true)] at hlower
      unfold Meets
      rw [convert_sampleCmp h h1, and_iff_left (lowers_of_error hlower)]
      simp only [metal]
      rw [createSampleCmpCommon_inj hdepth]
      simp only [Environment.plain, coordinates_eq_iff, true_and, implies_true, and_true]
      exact (and_iff_left ⟨h1, hmark⟩).symm

theorem createSampleCmpCommon_texture {o o' : AIRBuilderOptions} {t t' : Texture}
    {handle handle' sampler sampler' : Term}
    {coord coord' index index' r r' offset offset' x x' y y' : Arg} {b b' : Bool}
    (hdepth : (textureInfo t.kind).isDepth = true) (hdepth' : (textureInfo t'.kind).isDepth = true)
    (h : createSampleCmpCommon o t handle sampler coord index r offset b x y =
      createSampleCmpCommon o' t' handle' sampler' coord' index' r' offset' b' x' y') :
    t.kind = t'.kind ∧ t.sampleType = t'.sampleType := by
  unfold createSampleCmpCommon at h
  rw [if_pos hdepth, if_pos hdepth'] at h
  exact Function.sampleCompare.inj (Call.mk.inj (List.cons.inj h).1).1

/-- When a comparison at level zero is right. -/
theorem meets_sampleCmpLevelZero {a : Sampling} {offset : Fin 3 → BitVec 32}
    {reference : TypedTerm .float} (h : (sampleCmpLevelZero a offset reference).Valid s) :
    (sampleCmpLevelZero a offset reference).Meets s env ↔
      (sampleCmpLevelZero a offset reference).Alike env := by
  by_cases h1 : coordinateCount a.tex.resourceType = 1
  · exact iff_of_false (fun hm => convert_compares1D h h1 _ hm.1) fun hal => hal.2.1 h1
  · have hlower : lowerDxilCall s env (sampleCmpLevelZero a offset reference).dxil = _ :=
      lower_sampleCmpLevelZero h h1
    have hdepth := isDepth_metalTexture h.2.2.1 h.2.2.2 .sample
    unfold Meets
    rw [convert_sampleCmpLevelZero h h1]
    have hconvert : (sampleCmpLevelZero a offset reference).metal env =
        (sampleCmpLevelZero a offset reference).metal env.plain ↔
          env.options.sampleNaNToZero = false := by
      simp only [metal]
      rw [createSampleCmpCommon_inj hdepth]
      simp only [Environment.plain, coordinates_eq_iff, true_and, implies_true, and_true]
    rw [hconvert]
    refine and_congr_right fun _ => ?_
    cases hmark : a.tex.marks.compared with
    | false =>
      rw [if_neg (by rw [hmark]; exact Bool.false_ne_true)] at hlower
      exact iff_of_true (lowers_of_error hlower) ⟨h1, fun he => absurd he Bool.false_ne_true⟩
    | true =>
      rw [if_pos hmark] at hlower
      rw [lowers_iff hlower]
      have hkind : a.tex.scalerType = .float → dxilTexture a.tex .sample =
          metalTexture a.tex true .sample := fun hfloat => by
        rw [metalTexture_compares h1, dxilTexture_eq_iff]
        exact ⟨hfloat, fun _ => hmark.trans h.2.2.2.symm⟩
      by_cases hfloat : a.tex.scalerType = .float
      · rw [hkind hfloat]
        simp only [metal]
        rw [createSampleCmpCommon_inj hdepth, sampler_eq_iff, cutElement_eq_iff]
        simp only [Environment.plain, true_and, metalTexture, isArray_metalKind]
        obtain ⟨-, -, htype, hcompared⟩ := h
        by_cases h2 : a.tex.resourceType = .texture2D
        · simp [h2, hcompared, isCube, arrayCoordinate, coordinateCount, metalKind, pushOffset,
            getOffset, Sampling.offset, metalTexture, texelOffset, offsetCount, hfloat]
          exact and_congr eq_comm eq_comm
        · refine iff_of_false ?_ fun hal => h2 (hal.2 trivial).1
          rintro ⟨⟨hcube, harray⟩, -⟩
          cases ht : a.tex.resourceType <;> rw [ht] at htype h1 h2 hcube harray <;>
            first
              | (cases htype; done)
              | exact h1 rfl
              | exact h2 rfl
              | (cases hcube; done)
              | cases harray rfl
      · refine iff_of_false (fun he => hfloat ?_) fun hal => hfloat (hal.2 rfl).2.1
        exact (createSampleCmpCommon_texture (isDepth_dxilTexture h.2.2.1 h1 hmark .sample) hdepth
          he).2.symm

/-- A comparison in a gather has no reference, where it is not rejected. -/
theorem meets_gatherCmp {a : Sampling} {offset : Fin 2 → TypedTerm .int}
    {reference : TypedTerm .float} (h : (gatherCmp a offset reference).Valid s) :
    (gatherCmp a offset reference).Meets s env ↔ (gatherCmp a offset reference).Alike env := by
  obtain ⟨o, hlower⟩ := @lower_gatherCmp s env _ _ _ h
  obtain ⟨hcomparable, h1⟩ := gather_comparable h.2.2.1
  have hdepth := isDepth_metalTexture hcomparable h.2.2.2 .sample
  cases hmark : a.tex.marks.compared with
  | true =>
    refine iff_of_false ?_ fun hal => Bool.false_ne_true (hal.2.symm.trans hmark)
    rintro ⟨-, hlowers⟩
    rw [if_pos hmark] at hlower
    have he := (lowers_iff hlower).mp hlowers
    cases createGatherCompare_reference (isDepth_dxilTexture hcomparable h1 hmark .sample) hdepth he
  | false =>
    rw [if_neg (by rw [hmark]; exact Bool.false_ne_true)] at hlower
    unfold Meets
    rw [convert_gatherCmp h, and_iff_left (lowers_of_error hlower)]
    simp only [metal]
    rw [createGatherCompare_inj hdepth]
    simp only [Environment.plain, coordinates_eq_iff]
    exact (and_iff_left hmark).symm

/-- The offset that is read one operand too late: the second one with the channel. -/
theorem swappedOffset_iff (x y : Term) (channel : BitVec 32) :
    (Term.int (y.constant?.getD 0) = x ∧ Term.int channel = y) ↔ x = .int channel ∧ y =
      .int channel := by
  constructor
  · rintro ⟨rfl, rfl⟩
    exact ⟨rfl, rfl⟩
  · rintro ⟨rfl, rfl⟩
    exact ⟨rfl, rfl⟩

/-- When a gather is right. -/
theorem meets_gather {a : Sampling} {offset : Fin 2 → TypedTerm .int} {channel : BitVec 32}
    (h : (gather a offset channel).Valid s) :
    (gather a offset channel).Meets s env ↔ (gather a offset channel).Alike env := by
  obtain ⟨immediate, himmediate, hlower⟩ := @lower_gather s env _ _ _ h
  unfold Meets
  rw [convert_gather h, lowers_iff hlower]
  simp only [metal]
  have hsensitive : coordinateCount a.tex.resourceType = 2 ∨ isCube a.tex.resourceType = true := by
    obtain ⟨-, -, htype⟩ := h
    cases ht : a.tex.resourceType <;> rw [ht] at htype <;> first | (cases htype; done) | decide
  by_cases htexture : dxilTexture a.tex .sample = metalTexture a.tex false .sample
  · rw [htexture, createGather_inj, createGather_inj, sampler_eq_iff, cutElement_eq_iff]
    obtain ⟨hfloat, hmark⟩ := dxilTexture_eq_iff.mp htexture
    simp only [Environment.plain, coordinates_eq_iff, true_and, implies_true, and_true,
      metalTexture, isArray_metalKind]
    obtain ⟨-, -, htype⟩ := h
    refine Iff.trans (and_congr_right fun _ => ?_) (and_iff_left ⟨hfloat, hmark hsensitive⟩).symm
    by_cases h2 : a.tex.resourceType = .texture2D
    · obtain ⟨h0, h1⟩ := himmediate (by rw [h2]; rfl)
      have hoffset := swappedOffset_iff (offset 0).val (offset 1).val channel
      cases a.tex.compared
      · simp [h2, isCube, arrayCoordinate, coordinateCount, metalKind, pushGatherOffset, getOffset,
          h0, h1, textureInfo, argInt]
        exact (and_congr hoffset eq_comm).trans and_assoc
      · simp [h2, isCube, arrayCoordinate, coordinateCount, metalKind, pushGatherOffset, getOffset,
          h0, h1, textureInfo]
        exact hoffset
    · refine iff_of_false ?_ fun hal => h2 hal.1
      rintro ⟨⟨hcube, harray⟩, -⟩
      cases ht : a.tex.resourceType <;> rw [ht] at htype h2 hcube harray <;>
        first
          | (cases htype; done)
          | exact h2 rfl
          | (cases hcube; done)
          | cases harray rfl
  · refine iff_of_false (fun hm => htexture ?_) fun hal => htexture ?_
    · obtain ⟨hkind, htype⟩ := Function.gather.inj (Call.mk.inj (List.cons.inj hm.2).1).1
      exact dxilTexture_eq hkind htype
    · exact dxilTexture_eq_iff.mpr ⟨hal.2.1, fun _ => hal.2.2⟩

theorem texelOperands_component {tex : TextureResource} {coord : Fin 3 → TypedTerm .int}
    {opcode : DxilOpcode} {front back : List Operand} (i : Fin 3)
    (hi : i.val < operandCount tex.resourceType) :
    DxilCall.componentFromOperand ⟨opcode, front ++ texelOperands tex coord ++ back⟩
      (front.length + 1 + i.val) = (coord i).val := by
  have hget : (front ++ texelOperands tex coord ++ back)[front.length + i.val]? =
      some (.value (.scalar (coord i).val)) := by
    rw [List.append_assoc, List.getElem?_append_right (Nat.le_add_right _ _),
      Nat.add_sub_cancel_left]
    match i with
    | 0 => simp [texelOperands, padded, show 0 < operandCount tex.resourceType from hi]
    | 1 => simp [texelOperands, padded, show 1 < operandCount tex.resourceType from hi]
    | 2 => simp [texelOperands, padded, show 2 < operandCount tex.resourceType from hi]
  have hindex : front.length + 1 + i.val - 1 = front.length + i.val := by omega
  simp only [DxilCall.componentFromOperand, DxilCall.operandValue, hindex, hget]

/-- What the DXIL front end emits for a load. -/
theorem lower_load {tex : TextureResource} {coord : Fin 3 → TypedTerm .int} {level : TypedTerm .int}
    {offset : Fin 3 → BitVec 32} (h : (load tex coord level offset).Valid s) :
    lowerDxilCall s env (load tex coord level offset).dxil =
      .ok (createRead (dxilTexture tex .read) tex.handle
        (.vector (metalCoord (coordinateCount tex.resourceType) (coord 0) (coord 1) (coord 2)))
        (texelElement tex.resourceType coord) .null (.scalar level.val) false) := by
  obtain ⟨htex, htype⟩ := h
  have hcall (i : Fin 3) (hi : i.val < operandCount tex.resourceType) :
      DxilCall.componentFromOperand (load tex coord level offset).dxil (3 + i.val) =
        (coord i).val :=
    texelOperands_component i hi
  have hhandle : DxilCall.resolveHandle (load tex coord level offset).dxil 1 =
      (.srv, tex.rangeId) := rfl
  have hlevel : DxilCall.operandValue (load tex coord level offset).dxil 2 = .scalar level.val :=
    rfl
  unfold dxil at hcall hhandle hlevel ⊢
  dsimp only at hcall hhandle hlevel ⊢
  unfold lowerDxilCall
  simp only [hhandle, Shader.getTextureHandle_srv htex,
    textureCoord_texel htype hcall, textureArrayIndex_texel htype hcall, hlevel, buildTexture_eq]

theorem metalCoord_eq_cons {type : ScalarType} (count : Nat) (x y z : TypedTerm type) :
    ∃ ts, metalCoord count x y z = x.val :: ts := by
  unfold metalCoord
  split <;> exact ⟨_, rfl⟩

/-- Adding an offset moves a coordinate. -/
theorem texel_eq_iff {type : ResourceType} (coord : Fin 3 → TypedTerm .int)
    (offset : Fin 3 → BitVec 32) :
    .vector (metalCoord (coordinateCount type) (coord 0) (coord 1) (coord 2)) =
      texel type coord offset ↔
      ∀ i : Fin 3, i.val < offsetCount type → offset i = 0 := by
  have hzero : (texelOffset type offset 0 = 0 ∧ texelOffset type offset 1 = 0 ∧
      texelOffset type offset 2 = 0) ↔
      ∀ i : Fin 3, i.val < offsetCount type → offset i = 0 := by
    simp only [texelOffset, ite_eq_right_iff, Fin.forall_fin_succ]
    simp
  unfold texel
  dsimp only
  by_cases hz : texelOffset type offset 0 = 0 ∧ texelOffset type offset 1 = 0 ∧
      texelOffset type offset 2 = 0
  · rw [if_pos hz]
    exact iff_of_true rfl (hzero.mp hz)
  · rw [if_neg hz]
    refine iff_of_false (fun h => ?_) fun h => hz (hzero.mpr h)
    obtain ⟨ts, hcons⟩ := metalCoord_eq_cons (coordinateCount type) (coord 0) (coord 1) (coord 2)
    injection h with h
    rw [hcons, List.zipWith_cons_cons] at h
    exact Term.ne_binary_left _ _ _ (List.cons.inj h).1

theorem createRead_inj {kind : ResourceKind} {type : SampleType} {access access' : MemoryAccess}
    {handle : Term} {pos pos' index sample sample' level level' : Arg} {coherent coherent' : Bool} :
    createRead ⟨kind, type, access⟩ handle pos index sample level coherent =
        createRead ⟨kind, type, access'⟩ handle pos' index sample' level' coherent' ↔
      coherent = coherent' ∧ pos = pos' ∧
        ((textureInfo kind).isCube = true ∨ (textureInfo kind).isMs = true → sample = sample') ∧
        ((textureInfo kind).isMipmaped = true → level = level') ∧ access = access' := by
  cases kind <;> simp [createRead, textureInfo, pushIf, argInt]

theorem createWrite_inj {kind : ResourceKind} {type : SampleType} {access access' : MemoryAccess}
    {handle : Term} {pos index face level value : Arg} {coherent coherent' : Bool} :
    createWrite ⟨kind, type, access⟩ handle pos index face level value coherent =
        createWrite ⟨kind, type, access'⟩ handle pos index face level value coherent' ↔
      coherent = coherent' ∧ access = access' := by
  cases kind <;> simp [createWrite, textureInfo, pushIf, argInt]

theorem storable_info {type : ResourceType} (h : storable type = true) (depth : Bool) :
    (textureInfo (metalKind type depth)).isCube = false ∧
    (textureInfo (metalKind type depth)).isMs = false ∧
      (textureInfo (metalKind type depth)).isMipmaped = true := by
  cases type <;> cases h <;> cases depth <;> exact ⟨rfl, rfl, rfl⟩

theorem multisampled_info {type : ResourceType} (h : multisampled type = true) (depth : Bool) :
    storable type = false ∧ coordinateCount type = 2 ∧
      (textureInfo (metalKind type depth)).isMs = true := by
  cases type <;> cases h <;> cases depth <;> exact ⟨rfl, rfl, rfl⟩

/-- A read names the kind and the type of its texture. -/
theorem createRead_texture {t t' : Texture} {handle handle' : Term}
    {pos pos' index index' sample sample' level level' : Arg} {coherent coherent' : Bool}
    (h : createRead t handle pos index sample level coherent =
      createRead t' handle' pos' index' sample' level' coherent') :
    t.kind = t'.kind ∧ t.sampleType = t'.sampleType := by
  obtain ⟨hkind, htype, -⟩ := Function.read.inj (Call.mk.inj (List.cons.inj h).1).1
  exact ⟨hkind, htype⟩

/-- When a load is right. -/
theorem meets_load {tex : TextureResource} {coord : Fin 3 → TypedTerm .int} {level : TypedTerm .int}
    {offset : Fin 3 → BitVec 32} (h : (load tex coord level offset).Valid s) :
    (load tex coord level offset).Meets s env ↔ (load tex coord level offset).Alike env := by
  unfold Meets
  rw [convert_load h, lowers_iff (lower_load h)]
  simp only [metal, true_and]
  by_cases htexture : dxilTexture tex .read = metalTexture tex false .read
  · rw [htexture]
    obtain ⟨hfloat, hmark⟩ := dxilTexture_eq_iff.mp htexture
    simp only [metalTexture]
    rw [createRead_inj, texel_eq_iff]
    obtain ⟨-, htype | htype⟩ := h
    · obtain ⟨hcube, hms, -⟩ := storable_info htype
        (if coordinateCount tex.resourceType = 1 then false else tex.compared)
      have haccess : (MemoryAccess.read = if tex.sampled then .sample else .read) ↔
          tex.sampled = false := by
        cases tex.sampled <;> decide
      simp only [hcube, hms, haccess, Bool.false_eq_true, or_self, false_imp_iff, implies_true,
        true_and, Alike, htype]
      rw [and_comm, and_iff_left (a := _ ∧ _) ⟨hfloat, fun h2 => hmark (Or.inl h2)⟩]
    · obtain ⟨hstorable, -, hms⟩ := multisampled_info htype
        (if coordinateCount tex.resourceType = 1 then false else tex.compared)
      refine iff_of_false ?_ fun hal => Bool.false_ne_true (hstorable.symm.trans hal.1.1)
      rintro ⟨-, -, hsample, -⟩
      cases hsample (Or.inr hms)
  · refine iff_of_false (fun he => htexture ?_) fun hal => htexture ?_
    · obtain ⟨hkind, htype⟩ := createRead_texture he
      exact dxilTexture_eq hkind htype
    · refine dxilTexture_eq_iff.mpr ⟨hal.2.1, fun hsensitive => hal.2.2 ?_⟩
      refine hsensitive.resolve_right fun hcube => ?_
      have hstorable := hal.1.1
      cases ht : tex.resourceType <;> rw [ht]
          at hstorable hcube <;> first | cases hstorable; done | cases hcube

theorem lower_loadUav {tex : TextureResource} {coord : Fin 3 → TypedTerm .int}
    (h : (loadUav tex coord).Valid s) :
    lowerDxilCall s env (loadUav tex coord).dxil =
      .ok (createRead (dxilTexture tex .read) tex.handle (texel tex.resourceType coord fun _ => 0)
        (texelElement tex.resourceType coord) .null (.scalar (.undef .int)) false) := by
  obtain ⟨htex, htype⟩ := h
  have hcall (i : Fin 3) (hi : i.val < operandCount tex.resourceType) :
      DxilCall.componentFromOperand (loadUav tex coord).dxil (3 + i.val) = (coord i).val :=
    texelOperands_component i hi
  have hhandle : DxilCall.resolveHandle (loadUav tex coord).dxil 1 = (.uav, tex.rangeId) := rfl
  have hlevel : DxilCall.operandValue (loadUav tex coord).dxil 2 = .scalar (.undef .int) := rfl
  rw [texel_zero]
  unfold dxil at hcall hhandle hlevel ⊢
  dsimp only at hcall hhandle hlevel ⊢
  unfold lowerDxilCall
  simp only [hhandle, Shader.getTextureHandle_uav htex,
    textureCoord_texel (Or.inl htype) hcall, textureArrayIndex_texel (Or.inl htype) hcall, hlevel,
      buildTexture_eq]

/-- The level of a load from a UAV is the operand that is not defined. -/
theorem not_lowers_loadUav {tex : TextureResource} {coord : Fin 3 → TypedTerm .int}
    (h : (loadUav tex coord).Valid s) : ¬ (loadUav tex coord).Lowers s env := by
  rw [lowers_iff (lower_loadUav h)]
  simp only [metal]
  split
  · intro he
    cases (List.cons.inj he).2
  · intro he
    obtain ⟨hkind, htype⟩ := createRead_texture he
    rw [List.nil_append, dxilTexture_eq hkind htype] at he
    obtain ⟨-, -, -, hlevel, -⟩ := createRead_inj.mp he
    cases hlevel (storable_info h.2 _).2.2

/-- What the DXIL front end emits for a store. -/
theorem lower_store {tex : TextureResource} {coord : Fin 3 → TypedTerm .int} {type : ScalarType}
    {value : Fin 4 → TypedTerm type} (h : (store tex coord type value).Valid s) :
    lowerDxilCall s env (store tex coord type value).dxil =
      .ok (createWrite (dxilTexture tex .write) tex.handle (texel tex.resourceType coord fun _ => 0)
        (texelElement tex.resourceType coord) .null (argInt 0)
        (.vector [(value 0).val, (value 1).val, (value 2).val, (value 3).val]) false) := by
  obtain ⟨htex, htype, -⟩ := h
  have hcall (i : Fin 3) (hi : i.val < operandCount tex.resourceType) :
      DxilCall.componentFromOperand (store tex coord type value).dxil (2 + i.val) = (coord i).val :=
    texelOperands_component i hi
  have hhandle : DxilCall.resolveHandle (store tex coord type value).dxil 1 = (.uav, tex.rangeId) :=
    rfl
  have hvalue : buildVector4 [(store tex coord type value).dxil.operandValue 5,
      (store tex coord type value).dxil.operandValue 6,
      (store tex coord type value).dxil.operandValue 7,
      (store tex coord type value).dxil.operandValue 8] =
      .vector [(value 0).val, (value 1).val, (value 2).val, (value 3).val] := by
    simp [dxil, DxilCall.operandValue, texelOperands, padded, operand, buildVector4, castValue,
      (value 0).property, (value 1).property, (value 2).property, (value 3).property]
  rw [texel_zero]
  unfold dxil at hcall hhandle hvalue ⊢
  dsimp only at hcall hhandle hvalue ⊢
  unfold lowerDxilCall
  simp only [hhandle, Shader.getTextureHandle_uav htex,
    textureCoord_texel (Or.inl htype) hcall, textureArrayIndex_texel (Or.inl htype) hcall, hvalue,
      buildTexture_eq]

/-- When a store is right. -/
theorem meets_store {tex : TextureResource} {coord : Fin 3 → TypedTerm .int} {type : ScalarType}
    {value : Fin 4 → TypedTerm type} (h : (store tex coord type value).Valid s) :
    (store tex coord type value).Meets s env ↔ (store tex coord type value).Alike env := by
  have hcompared := s.uavs_compared tex h.1
  have hflat : isCube tex.resourceType = false := by
    obtain ⟨-, htype, -⟩ := h
    cases ht : tex.resourceType <;> rw [ht] at htype <;> first | (cases htype; done) | rfl
  unfold Meets
  rw [convert_store h, lowers_iff (lower_store h)]
  simp only [metal, Environment.plain, true_and]
  by_cases htexture : dxilTexture tex .write = metalTexture tex false .write
  · rw [htexture]
    obtain ⟨hfloat, hmark⟩ := dxilTexture_eq_iff.mp htexture
    simp only [metalTexture]
    rw [createWrite_inj]
    have haccess : MemoryAccess.write = tex.uavAccess ↔ tex.read = false := by
      unfold TextureResource.uavAccess
      rw [if_pos h.2.2]
      cases tex.read <;> decide
    rw [haccess, and_comm, @eq_comm _ false]
    exact (and_iff_left ⟨hfloat, fun h2 => (hmark (Or.inl h2)).trans hcompared⟩).symm
  · refine iff_of_false (fun he => htexture ?_) fun hal => htexture ?_
    · obtain ⟨hkind, htype, -⟩ := Function.write.inj (Call.mk.inj (List.cons.inj he).1).1
      exact dxilTexture_eq hkind htype
    · refine dxilTexture_eq_iff.mpr ⟨hal.2.1, fun hsensitive => ?_⟩
      rw [hflat] at hsensitive
      exact (hal.2.2 (hsensitive.resolve_right Bool.false_ne_true)).trans hcompared.symm

/-- The product of two scalars is no dot product. -/
theorem meets_dot {length : Fin 3} {a b : Fin 4 → TypedTerm .float} {vectors : Bool} :
    (dot length a b vectors).Meets s env ↔ (dot length a b vectors).Alike env := by
  unfold Meets
  rw [convert_dot]
  cases vectors with
  | true =>
    refine iff_of_true ⟨rfl, ?_⟩ rfl
    rw [lowers_iff (rfl : lowerDxilCall s env (dot length a b true).dxil = .ok _)]
    match length with
    | 0 => rfl
    | 1 => rfl
    | 2 => rfl
  | false =>
    refine iff_of_false ?_ Bool.false_ne_true
    rintro ⟨-, hlowers⟩
    match length with
    | 0 => cases hlowers _ rfl
    | 1 => cases hlowers _ rfl
    | 2 => cases hlowers _ rfl

/-- The update of a counter is an instruction of LLVM in the one and a Metal function in the other,
where it is not rejected. -/
theorem meets_updateCounter {buffer : TextureResource} {up : Bool}
    (h : (updateCounter buffer up).Valid s) :
    (updateCounter buffer up).Meets s env ↔ (updateCounter buffer up).Alike env := by
  obtain ⟨hbuffer, htype, -⟩ := id h
  have hhandle : DxilCall.resolveHandle (updateCounter buffer up).dxil 1 = (.uav, buffer.rangeId) :=
    rfl
  have hinc : DxilCall.constantOperand (updateCounter buffer up).dxil 2 =
      some (if up then 1 else -1) := rfl
  have hcounter := Shader.loadDxilCounter_eq hbuffer htype
  unfold Meets
  rw [convert_updateCounter h]
  unfold dxil at hhandle hinc
  dsimp only at hhandle hinc
  cases hmark : buffer.marks.counter with
  | false =>
    rw [hmark, if_neg Bool.false_ne_true] at hcounter
    have hlower : lowerDxilCall s env (updateCounter buffer up).dxil =
        .error "counter update without resolved UAV counter" := by
      unfold dxil lowerDxilCall
      simp only [hhandle, hcounter]
      rfl
    exact iff_of_true ⟨rfl, lowers_of_error hlower⟩ hmark
  | true =>
    rw [hmark, if_pos rfl] at hcounter
    have hlower : lowerDxilCall s env (updateCounter buffer up).dxil =
        .ok [⟨.atomicRMW (if up then .add else .sub), [.scalar buffer.counter, argInt 1]⟩] := by
      unfold dxil lowerDxilCall
      simp only [hhandle, hcounter, hinc]
      cases up <;> rfl
    refine iff_of_false (fun hm => ?_) fun hal => Bool.false_ne_true (hal.symm.trans hmark)
    have he := (lowers_iff hlower).mp hm.2
    simp only [metal, createAtomicRMW] at he
    cases (Call.mk.inj (List.cons.inj he).1).1

/-- The front ends lower an operation alike, as D3D defines it, exactly where the one of DXIL leaves
nothing out. -/
theorem meets_iff_alike (op : Operation) (h : op.Valid s) : op.Meets s env ↔ op.Alike env := by
  cases op with
  | sample => exact iff_of_false (fun hm => not_lowers_sample h hm.2) id
  | sampleBias => exact iff_of_false (fun hm => not_lowers_sampleBias h hm.2) id
  | sampleLevel => exact iff_of_false (fun hm => not_lowers_sampleLevel h hm.2) id
  | sampleGrad => exact iff_of_false (fun hm => not_lowers_sampleGrad h hm.2) id
  | sampleCmp => exact meets_sampleCmp h
  | sampleCmpLevelZero => exact meets_sampleCmpLevelZero h
  | gather => exact meets_gather h
  | gatherCmp => exact meets_gatherCmp h
  | load => exact meets_load h
  | loadUav => exact iff_of_false (fun hm => not_lowers_loadUav h hm.2) id
  | store => exact meets_store h
  | dot => exact meets_dot
  | updateCounter => exact meets_updateCounter h

/-! ## One shader -/

/-- A texture and a sampler. -/
def oneTexture (sampled compared : Bool) : TextureResource :=
  { rangeId := 0
    resourceType := .texture2D
    scalerType := .float
    sampled := sampled
    compared := compared
    read := true
    written := false
    globalCoherent := false
    withCounter := false
    argIndex := 3
    argMetadataIndex := 4
    argCounterIndex := 0
    marks := ⟨compared, false⟩ }

/-- A sampler with three fields. -/
def oneSampler : SamplerResource :=
  { rangeId := 0
    argIndex := 0
    argCubeIndex := 1
    argMetadataIndex := 2
    cube_ne := by decide }

/-- A shader with one texture and one sampler. -/
def oneShader (sampled compared : Bool) : Shader :=
  { srvs := [oneTexture sampled compared]
    uavs := []
    samplers := [oneSampler]
    srvs_nodup := List.nodup_singleton _
    uavs_nodup := List.nodup_nil
    samplers_nodup := List.nodup_singleton _
    uavs_compared := fun _ h => absurd h List.not_mem_nil }

/-- Sampling with the level 0 of a constant, without an offset. -/
def levelSample : Operation :=
  .sampleLevel ⟨oneTexture true false, oneSampler, fun i => ⟨.operand .float i.val, rfl⟩⟩
    (fun _ => 0)
    ⟨.float0, rfl⟩

/-- `SampleLevel` takes the second offset for the level. -/
theorem level_dropped :
    levelSample.Valid (oneShader true false) ∧
      ¬ levelSample.Meets (oneShader true false) ⟨{}, false⟩ := by
  refine ⟨⟨List.mem_singleton.mpr rfl, List.mem_singleton.mpr rfl, rfl⟩, fun h => ?_⟩
  exact absurd (h.2 _ rfl) (by decide)

/-- A load of the texel that two operands of the shader name. -/
def plainLoad : Operation :=
  .load (oneTexture false false) (fun i => ⟨.operand .int i.val, rfl⟩) ⟨.int 0, rfl⟩ fun _ => 0

theorem meets_iff_alike_plainLoad : plainLoad.Meets (oneShader false false) ⟨{}, false⟩ :=
  (meets_iff_alike plainLoad ⟨List.mem_singleton.mpr rfl, Or.inl rfl⟩).mpr
    ⟨⟨rfl, rfl, fun _ _ => rfl⟩, rfl, fun _ => rfl⟩

end Operation

end FrontEnds

end Dxmt
