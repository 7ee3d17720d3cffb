import Dxmt.DxilTextureOps
import Dxmt.FirstFree

/-!
# Argument tables: `ArgumentBufferBuilder`, `encodeShaderResources`

The struct of 64-bit fields that the compiled shader reads its resources from, as each front end
lays it out, the arguments and the size that each reports, and the fields that the encoder writes. A
field of the struct goes by its name: `cube_s3` is the class, the number and the role. What kind of
texture a field is and how the shader accesses it is left out.

Source: `src/airconv/air_signature.cpp:72-143`, `airconv_public.h:28-95, 178-195`,
`src/dxmt/dxmt_context.cpp:270-300, 1431-1590`.
-/

namespace Dxmt

namespace ArgumentTable

open FrontEnds FirstFree AirBuilder

/-- What is in a field of a resource. -/
inductive FieldRole
  | resource
  | cube
  | metadata
  | counter
  deriving DecidableEq

/-- What a field stands for. -/
structure FieldName where
  resourceClass : FrontEnds.DxilTranslationResourceClass
  id : Nat
  role : FieldRole
  deriving DecidableEq

/-- The types of a field. -/
inductive FieldType
  | buffer
  | texture
  | sampler
  | integer64
  deriving DecidableEq

/-- A field of an argument buffer. -/
structure Field where
  type : FieldType
  name : FieldName
  locationIndex : Nat
  deriving DecidableEq

/-- `ArgumentBufferBuilder`. -/
abbrev ArgumentBufferBuilder := List Field

namespace ArgumentBufferBuilder

/-- The field at the end, and its index in the struct. -/
def define (fields : ArgumentBufferBuilder) (type : FieldType) (name : FieldName)
    (locationIndex : Nat) :
    ArgumentBufferBuilder × Nat :=
  (fields ++ [⟨type, name, locationIndex⟩], fields.length)

/-- `DefineBuffer`. -/
def defineBuffer (fields : ArgumentBufferBuilder) := define fields .buffer
/-- `DefineSampler`. -/
def defineSampler (fields : ArgumentBufferBuilder) := define fields .sampler
/-- `DefineTexture`. -/
def defineTexture (fields : ArgumentBufferBuilder) := define fields .texture
/-- `DefineInteger64`. -/
def defineInteger64 (fields : ArgumentBufferBuilder) := define fields .integer64

variable (fields : ArgumentBufferBuilder) (name : FieldName) (locationIndex : Nat)

@[simp] theorem defineBuffer_eq : fields.defineBuffer name locationIndex =
    (fields ++ [⟨.buffer, name, locationIndex⟩], fields.length) := rfl

@[simp] theorem defineSampler_eq : fields.defineSampler name locationIndex =
    (fields ++ [⟨.sampler, name, locationIndex⟩], fields.length) := rfl

@[simp] theorem defineTexture_eq : fields.defineTexture name locationIndex =
    (fields ++ [⟨.texture, name, locationIndex⟩], fields.length) := rfl

@[simp] theorem defineInteger64_eq : fields.defineInteger64 name locationIndex =
    (fields ++ [⟨.integer64, name, locationIndex⟩], fields.length) := rfl

end ArgumentBufferBuilder

open ArgumentBufferBuilder

/-- `GetArgumentIndex`. -/
def getArgumentIndex (type : FrontEnds.DxilTranslationResourceClass) (slot : Nat) : Nat :=
  match type with
  | .cbv => slot
  | .sampler => slot + 32
  | .srv => slot * 3 + 128
  | .uav => slot * 3 + 512
  | .unknown => 0

/-- `ResourceRange`. -/
structure ResourceRange where
  rangeId : Nat
  bindingSlot : Nat
  lowerBound : Nat
  size : Nat
  space : Nat

/-- `ConstantBufferInfo`, `SamplerInfo`, `ShaderResourceViewInfo` and `UnorderedAccessViewInfo`. -/
structure RangeInfo where
  range : ResourceRange
  resourceType : ResourceType := .nonApplicable
  scalerType : SampleType := .float
  read : Bool := false
  written : Bool := false
  sampled : Bool := false
  compared : Bool := false
  withCounter : Bool := false
  sizeInVec4 : Nat := 0
  argIndex : Nat := 0
  argCubeIndex : Nat := 0
  argMetadataIndex : Nat := 0
  argCounterIndex : Nat := 0

/-- `MTL_SM50_SHADER_ARGUMENT_FLAG`. -/
structure ArgumentFlags where
  buffer : Bool := false
  texture : Bool := false
  elementWidth : Bool := false
  uavCounter : Bool := false
  textureMinlodClamp : Bool := false
  tbufferOffset : Bool := false
  textureArray : Bool := false
  readAccess : Bool := false
  writeAccess : Bool := false
  textureMultisampled : Bool := false
  texture3D : Bool := false
  textureCube : Bool := false
  textureUint : Bool := false
  textureSint : Bool := false
  textureDepth : Bool := false
  deriving DecidableEq

/-- `MTL_SM50_SHADER_ARGUMENT`. -/
structure Argument where
  type : FrontEnds.DxilTranslationResourceClass
  bindingSlot : Nat
  flags : ArgumentFlags
  structurePtrOffset : Nat
  registerSpace : Nat
  registerLowerBound : Nat
  registerCount : Nat
  cbufferSizeInVec4 : Nat := 0

/-! ## The encoder -/

/-- What the encoder writes to a field. -/
inductive Word
  | address (gpuAddress : Nat)
  | byteLength (bytes : Nat)
  | texture (gpuResourceId : Nat)
  | elementRange (elementCount firstElement : Nat)
  | textureMetadata (arrayLength : Nat)
  | sampler (handle : Nat)
  | cubeSampler (handle : Nat)
  | lodBias (bits : Nat)
  | counter (gpuAddress : Nat)

/-- A sampler that is bound. -/
structure Sampler where
  samplerStateHandle : Nat
  samplerStateCubeHandle : Nat
  lodBias : Nat

/-- A buffer that is bound: where its slice begins on the GPU, and its view when the shader reads
texels. -/
structure BufferView where
  gpuAddress : Nat
  byteLength : Nat
  gpuResourceId : Nat
  elementCount : Nat
  firstElement : Nat

/-- What the encoder writes of a texture view. -/
structure TextureView where
  gpuResourceId : Nat
  arrayLength : Nat

/-- What is in the slot of an argument, with what stands in for nothing. -/
structure Binding where
  buffer : Option BufferView
  texture : Option TextureView
  counter : Option Nat
  sampler : Option Sampler
  dummyTexture : Option TextureView
  dummySampler : Nat
  dummyCbuffer : Nat

/-- `encodeConstantBuffers` for one argument: the indices and what is written there. -/
def encodeConstantBuffer (arg : Argument) (binding : Binding) : List (Nat × Word) :=
  match binding.buffer with
  | none => [(arg.structurePtrOffset, .address binding.dummyCbuffer)]
  | some cbuf => [(arg.structurePtrOffset, .address cbuf.gpuAddress)]

/-- The words of a sampler; an empty slot has the dummy sampler. -/
def encodeSampler (arg : Argument) (binding : Binding) : List (Nat × Word) :=
  match binding.sampler with
  | none =>
    [(arg.structurePtrOffset, .sampler binding.dummySampler),
      (arg.structurePtrOffset + 1, .cubeSampler binding.dummySampler),
      (arg.structurePtrOffset + 2, .lodBias 0)]
  | some sampler =>
    [(arg.structurePtrOffset, .sampler sampler.samplerStateHandle),
      (arg.structurePtrOffset + 1, .cubeSampler sampler.samplerStateCubeHandle),
      (arg.structurePtrOffset + 2, .lodBias sampler.lodBias)]

/-- The words for a buffer or a texture; a missing texture is `dummy` or zero. -/
def encodeView (arg : Argument) (binding : Binding) (dummy : Option TextureView) :
    List (Nat × Word) :=
  if arg.flags.buffer then
    match binding.buffer with
    | some view =>
      [(arg.structurePtrOffset, .address view.gpuAddress),
        (arg.structurePtrOffset + 1, .byteLength view.byteLength)]
    | none => [(arg.structurePtrOffset, .address 0), (arg.structurePtrOffset + 1, .byteLength 0)]
  else if arg.flags.texture then
    match binding.buffer, binding.texture, dummy with
    | some view, _, _ =>
      [(arg.structurePtrOffset, .texture view.gpuResourceId),
        (arg.structurePtrOffset + 1, .elementRange view.elementCount view.firstElement)]
    | none, some view, _ | none, none, some view =>
      [(arg.structurePtrOffset, .texture view.gpuResourceId),
        (arg.structurePtrOffset + 1, .textureMetadata view.arrayLength)]
    | none, none, none =>
      [(arg.structurePtrOffset, .texture 0), (arg.structurePtrOffset + 1, .textureMetadata 0)]
  else []

/-- The word of a counter. -/
def encodeCounter (arg : Argument) (binding : Binding) : List (Nat × Word) :=
  if arg.flags.uavCounter then [(arg.structurePtrOffset + 2, .counter (binding.counter.getD 0))]
  else []

/-- `encodeShaderResources` for one argument; a constant buffer is never among them. -/
def encodeShaderResource (arg : Argument) (binding : Binding) : List (Nat × Word) :=
  match arg.type with
  | .sampler => encodeSampler arg binding
  | .srv => encodeView arg binding binding.dummyTexture
  | .uav => encodeView arg binding none ++ encodeCounter arg binding
  | .cbv | .unknown => []

/-- The slots that a stage has in the encoder's arrays. -/
def share : FrontEnds.DxilTranslationResourceClass → Nat
  | .cbv => 14
  | .sampler => 16
  | .srv => 128
  | .uav => 64
  | .unknown => 0

/-! ## The struct against the encoder -/

/-- The field is what the word is meant for. -/
def Field.TakesWord (field : Field) : Word → Prop
  | .address _ => field.type = .buffer ∧ field.name.role = .resource
  | .texture _ => field.type = .texture ∧ field.name.role = .resource
  | .sampler _ => field.type = .sampler ∧ field.name.role = .resource
  | .cubeSampler _ => field.type = .sampler ∧ field.name.role = .cube
  | .byteLength _ | .elementRange _ _ | .textureMetadata _ | .lodBias _ =>
    field.type = .integer64 ∧ field.name.role = .metadata
  | .counter _ => field.type = .buffer ∧ field.name.role = .counter

/-- The first word is the resource, as the flags say, and the second one is on its size. -/
theorem mem_encodeView {arg : Argument} {binding : Binding} {dummy : Option TextureView}
    {w : Nat × Word} (hw : w ∈ encodeView arg binding dummy) :
    (w.1 = arg.structurePtrOffset ∧ ∀ field : Field, field.name.role = .resource →
      field.type = (if arg.flags.buffer then .buffer else .texture) → field.TakesWord w.2) ∨
    (w.1 = arg.structurePtrOffset + 1 ∧ ∀ field : Field, field.name.role = .metadata →
      field.type = .integer64 → field.TakesWord w.2) := by
  unfold encodeView at hw
  split at hw
  next hbuffer =>
    split at hw
    all_goals
      simp only [List.mem_cons, List.not_mem_nil, or_false] at hw
      rcases hw with rfl | rfl
      · exact Or.inl ⟨rfl, fun field hrole htype => ⟨by rw [htype, if_pos hbuffer], hrole⟩⟩
      · exact Or.inr ⟨rfl, fun field hrole htype => ⟨htype, hrole⟩⟩
  next hbuffer =>
    split at hw
    · split at hw
      all_goals
        simp only [List.mem_cons, List.not_mem_nil, or_false] at hw
        rcases hw with rfl | rfl
        · exact Or.inl ⟨rfl, fun field hrole htype => ⟨by rw [htype, if_neg hbuffer], hrole⟩⟩
        · exact Or.inr ⟨rfl, fun field hrole htype => ⟨htype, hrole⟩⟩
    · cases hw

/-- A view has a first word, of the kind that the flags say. -/
theorem exists_mem_encodeView {arg : Argument}
    (h : arg.flags.buffer = true ∨ arg.flags.texture = true) (binding : Binding)
    (dummy : Option TextureView) :
    ∃ w ∈ encodeView arg binding dummy, w.1 = arg.structurePtrOffset ∧
      ∀ field : Field, field.TakesWord w.2 → field.type = if arg.flags.buffer then
        .buffer else .texture := by
  unfold encodeView
  split
  next hbuffer =>
    split
    all_goals exact ⟨_, List.mem_cons_self, rfl, fun field htakes => htakes.1⟩
  next hbuffer =>
    rw [if_pos (h.resolve_left hbuffer)]
    split
    all_goals exact ⟨_, List.mem_cons_self, rfl, fun field htakes => htakes.1⟩

/-- Which resource an argument is for. -/
structure ResourceKey where
  resourceClass : FrontEnds.DxilTranslationResourceClass
  id : Nat
  deriving DecidableEq

/-- The words written for the argument are below `qwords` and go to the fields of its resource. -/
def WritesInto (fields : ArgumentBufferBuilder) (qwords : Nat) (key : ResourceKey)
    (words : List (Nat × Word)) : Prop :=
  ∀ w ∈ words, w.1 < qwords ∧ ∃ field, fields[w.1]? = some field ∧
    field.name.resourceClass = key.resourceClass ∧ field.name.id = key.id ∧ field.TakesWord w.2

/-- No field is written by both. -/
def WritesApart (words words' : List (Nat × Word)) : Prop :=
  ∀ w ∈ words, ∀ w' ∈ words', w.1 ≠ w'.1

/-- A table: the fields of the compiled shader, the arguments with the resources they are for, and
the number of fields that space is reserved for. -/
structure Layout where
  fields : ArgumentBufferBuilder
  arguments : List (ResourceKey × Argument)
  qwords : Nat

/-- Whatever is bound, every word the encoder writes is for the field it goes to and in the space
reserved, and different arguments write different fields. -/
structure Layout.Agrees (layout : Layout) (encode : Argument → Binding → List (Nat × Word)) :
    Prop where
  into : ∀ a ∈ layout.arguments, ∀ binding, WritesInto layout.fields layout.qwords a.1
    (encode a.2 binding)
  apart : layout.arguments.Pairwise fun a a' =>
    ∀ binding binding', WritesApart (encode a.2 binding) (encode a'.2 binding')

/-! ## Tables in blocks

Each argument has a block of fields of its own, and the blocks stand one after the other. -/

/-- An argument with its block. -/
structure Item where
  key : ResourceKey
  argument : Argument
  block : List Field

variable {encode : Argument → Binding → List (Nat × Word)}

/-- What is written for the argument is for fields of its block, which begins at its offset. -/
def Item.Covers (encode : Argument → Binding → List (Nat × Word)) (item : Item) : Prop :=
  ∀ binding, ∀ w ∈ encode item.argument binding, ∃ k field, w.1 =
    item.argument.structurePtrOffset + k ∧
    item.block[k]? = some field ∧ field.name.resourceClass = item.key.resourceClass ∧
    field.name.id = item.key.id ∧ field.TakesWord w.2

/-- The blocks stand one after the other from `base` on, where their arguments say. -/
def Placed (base : Nat) : List Item → Prop
  | [] => True
  | item :: items =>
    item.argument.structurePtrOffset = base ∧ Placed (base + item.block.length) items

/-- The fields of the items, in order. -/
def blocks (items : List Item) : List Field := items.flatMap Item.block

theorem encode_sampler {arg : Argument} (h : arg.type = .sampler) (binding : Binding) :
    encodeShaderResource arg binding = encodeSampler arg binding := by
  simp only [encodeShaderResource, h]

theorem encode_srv {arg : Argument} (h : arg.type = .srv) (binding : Binding) :
    encodeShaderResource arg binding = encodeView arg binding binding.dummyTexture := by
  simp only [encodeShaderResource, h]

theorem encode_uav {arg : Argument} (h : arg.type = .uav) (binding : Binding) :
    encodeShaderResource arg binding = encodeView arg binding none ++
      encodeCounter arg binding := by
  simp only [encodeShaderResource, h]

/-- A counter's word is only written for an argument with the flag. -/
theorem mem_encodeCounter {arg : Argument} {binding : Binding} {w : Nat × Word}
    (hw : w ∈ encodeCounter arg binding) :
    arg.flags.uavCounter = true ∧ w = (arg.structurePtrOffset + 2,
    .counter (binding.counter.getD 0)) := by
  unfold encodeCounter at hw
  split at hw
  next hcounter => exact ⟨hcounter, List.mem_singleton.mp hw⟩
  next => cases hw

/-- A constant buffer has one field. -/
def cbvBlock (id attr : Nat) : List Field := [⟨.buffer, ⟨.cbv, id, .resource⟩, attr⟩]

/-- The sampler, the sampler for cubes and the bias. -/
def samplerBlock (id attr : Nat) : List Field :=
  [⟨.sampler, ⟨.sampler, id, .resource⟩, attr⟩, ⟨.sampler, ⟨.sampler, id, .cube⟩, attr + 1⟩,
    ⟨.integer64, ⟨.sampler, id, .metadata⟩, attr + 2⟩]

/-- The resource, its size and, where there is one, its counter. -/
def viewBlock (key : ResourceKey) (type : FieldType) (counter : Bool) (attr : Nat) : List Field :=
  [⟨type, ⟨key.resourceClass, key.id, .resource⟩, attr⟩,
    ⟨.integer64, ⟨key.resourceClass, key.id, .metadata⟩, attr + 1⟩] ++
    if counter then [⟨.buffer, ⟨key.resourceClass, key.id, .counter⟩, attr + 2⟩] else []

theorem covers_cbv (arg : Argument) (id attr : Nat) :
    (Item.mk ⟨.cbv, id⟩ arg (cbvBlock id attr)).Covers encodeConstantBuffer := by
  intro binding w hw
  refine ⟨0, ⟨.buffer, ⟨.cbv, id, .resource⟩, attr⟩, ?_⟩
  simp only [encodeConstantBuffer] at hw
  split at hw
  all_goals
    obtain rfl := List.mem_singleton.mp hw
    exact ⟨rfl, rfl, rfl, rfl, rfl, rfl⟩

theorem covers_sampler {arg : Argument} (htype : arg.type = .sampler) (id attr : Nat) :
    (Item.mk ⟨.sampler, id⟩ arg (samplerBlock id attr)).Covers encodeShaderResource := by
  intro binding w hw
  simp only [encode_sampler htype binding, encodeSampler] at hw
  split at hw
  all_goals
    simp only [List.mem_cons, List.not_mem_nil, or_false] at hw
    rcases hw with rfl | rfl | rfl
    · exact ⟨0, _, rfl, rfl, rfl, rfl, rfl, rfl⟩
    · exact ⟨1, _, rfl, rfl, rfl, rfl, rfl, rfl⟩
    · exact ⟨2, _, rfl, rfl, rfl, rfl, rfl, rfl⟩

/-- The words of a view go to its fields when the first one is what the flags say. -/
theorem covers_view {arg : Argument} {key : ResourceKey} {type : FieldType} {counter : Bool}
    {attr : Nat} (htype : arg.type = .srv ∨ arg.type = .uav)
    (hfield : type = if arg.flags.buffer then .buffer else .texture)
    (hcounter : arg.type = .uav → arg.flags.uavCounter = counter) :
    (Item.mk key arg (viewBlock key type counter attr)).Covers encodeShaderResource := by
  have hview : ∀ {binding dummy w}, w ∈ encodeView arg binding dummy → ∃ k field,
      w.1 = arg.structurePtrOffset + k ∧ (viewBlock key type counter attr)[k]? = some field ∧
        field.name.resourceClass = key.resourceClass ∧ field.name.id = key.id ∧
          field.TakesWord w.2 := by
    intro binding dummy w hw
    rcases mem_encodeView hw with ⟨hindex, htakes⟩ | ⟨hindex, htakes⟩
    · exact ⟨0, _, hindex, rfl, rfl, rfl, htakes _ rfl hfield⟩
    · exact ⟨1, _, hindex, rfl, rfl, rfl, htakes _ rfl rfl⟩
  intro binding w hw
  rcases htype with htype | htype
  · simp only [encode_srv htype] at hw
    exact hview hw
  · simp only [encode_uav htype, List.mem_append] at hw
    rcases hw with hw | hw
    · exact hview hw
    · obtain ⟨hflag, rfl⟩ := mem_encodeCounter hw
      have htrue : counter = true := (hcounter htype).symm.trans hflag
      refine ⟨2, ⟨.buffer, ⟨key.resourceClass, key.id, .counter⟩, attr + 2⟩, rfl, ?_, rfl, rfl,
          rfl, rfl⟩
      rw [htrue]
      rfl

theorem Placed.append {base : Nat} {items more : List Item} (h : Placed base items)
    (hmore : Placed (base + (blocks items).length) more) : Placed base (items ++ more) := by
  induction items generalizing base with
  | nil => simpa [blocks] using hmore
  | cons item items ih =>
    refine ⟨h.1, ih h.2 ?_⟩
    simpa [blocks, Nat.add_assoc] using hmore

theorem Item.Covers.bounds {item : Item} (h : item.Covers encode) {binding : Binding}
    {w : Nat × Word} (hw : w ∈ encode item.argument binding) :
    item.argument.structurePtrOffset ≤ w.1 ∧ w.1 < item.argument.structurePtrOffset +
    item.block.length := by
  obtain ⟨k, field, heq, hfield, -⟩ := h binding w hw
  have := (List.getElem?_eq_some_iff.mp hfield).1
  omega

theorem Placed.offset_le {base : Nat} {items : List Item} (h : Placed base items) {item : Item}
    (hmem : item ∈ items) : base ≤ item.argument.structurePtrOffset := by
  induction items generalizing base with
  | nil => cases hmem
  | cons first items ih =>
    rcases List.mem_cons.mp hmem with rfl | hmem
    · exact h.1.ge
    · have := ih h.2 hmem
      omega

theorem Placed.end_le {base : Nat} {items : List Item} (h : Placed base items) {item : Item}
    (hmem : item ∈ items) :
    item.argument.structurePtrOffset + item.block.length ≤ base + (blocks items).length := by
  induction items generalizing base with
  | nil => cases hmem
  | cons first items ih =>
    rw [blocks, List.flatMap_cons, List.length_append, ← Nat.add_assoc]
    rcases List.mem_cons.mp hmem with rfl | hmem
    · have := h.1
      omega
    · exact ih h.2 hmem

/-- A field of a block is in the table, as far from the block's beginning. -/
theorem Placed.getElem? (front : List Field) {items : List Item} (h : Placed front.length items)
    {item : Item} (hmem : item ∈ items) {k : Nat} {field : Field}
    (hk : item.block[k]? = some field) :
    (front ++ blocks items)[item.argument.structurePtrOffset + k]? = some field := by
  induction items generalizing front with
  | nil => cases hmem
  | cons first items ih =>
    have hlen : (front ++ first.block).length = front.length + first.block.length :=
      List.length_append
    rw [blocks, List.flatMap_cons, ← List.append_assoc]
    rcases List.mem_cons.mp hmem with rfl | hmem
    · have hlt := (List.getElem?_eq_some_iff.mp hk).1
      rw [h.1, List.getElem?_append_left (by omega), List.getElem?_append_right (by omega)]
      simpa using hk
    · exact ih (front ++ first.block) (hlen ▸ h.2) hmem

/-- Words written for different blocks go to different fields. -/
theorem Placed.apart {base : Nat} {items : List Item} (h : Placed base items)
    (hcovers : ∀ item ∈ items, item.Covers encode) :
    items.Pairwise fun a b =>
      ∀ binding binding', WritesApart (encode a.argument binding) (encode b.argument binding') := by
  induction items generalizing base with
  | nil => exact List.Pairwise.nil
  | cons first items ih =>
    refine List.Pairwise.cons ?_ (ih h.2 fun item hmem =>
        hcovers item (List.mem_cons_of_mem _ hmem))
    intro item hmem binding binding' w hw w' hw' heq
    have hfirst := (hcovers first List.mem_cons_self).bounds hw
    have hitem := (hcovers item (List.mem_cons_of_mem _ hmem)).bounds hw'
    have hoffset := h.2.offset_le hmem
    have := h.1
    omega

/-- A table in blocks agrees with the encoder when the space reserved is enough for what is written.
-/
theorem agrees_of_placed {items : List Item} {qwords : Nat} (h : Placed 0 items)
    (hcovers : ∀ item ∈ items, item.Covers encode)
    (hqwords : ∀ item ∈ items, ∀ binding, ∀ w ∈ encode item.argument binding, w.1 < qwords) :
    Layout.Agrees ⟨blocks items, items.map fun item => (item.key, item.argument),
    qwords⟩ encode where
  into := by
    intro a ha binding w hw
    obtain ⟨item, hmem, rfl⟩ := List.mem_map.mp ha
    refine ⟨hqwords item hmem binding w hw, ?_⟩
    obtain ⟨k, field, heq, hfield, hclass, hid, htakes⟩ := hcovers item hmem binding w hw
    have hget := Placed.getElem? [] h hmem hfield
    rw [List.nil_append, ← heq] at hget
    exact ⟨field, hget, hclass, hid, htakes⟩
  apart := List.pairwise_map.mpr (h.apart hcovers)

end ArgumentTable

end Dxmt
