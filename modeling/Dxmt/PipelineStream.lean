import Dxmt.ByteWords
import Dxmt.RingBump
import Dxmt.WhileLoop
import Mathlib.Logic.Function.Basic
import Mathlib.Data.List.Induction
import Mathlib.Data.List.Perm.Subperm

/-!
# Pipeline state streams: `ParsePipelineStateStream`

`ParsePipelineStateStream` walks over the subobjects of a stream: a type, and after it the payload
at its alignment. The next subobject is at the alignment of a pointer. What it reads is kept, so
that the result says whether it stayed in the stream. A null stream is rejected like an empty one
and is left out.

Headlines:
* **`parses_iff`**: unless the stream is empty, or ends after the type of a subobject whose payload
  would be aligned past the end, the reads are in bounds, what is accepted is a list of distinct
  subobjects, and every such list gives the description that it stands for.
* **`typeOnly_outside`**: four bytes that are the type of a root signature.

Offsets are `size_t`. Payloads are the bytes they are in the stream; what the code looks at is read
from these.

Source: `src/d3d12/d3d12_pipeline.cpp:1856-2151`.
-/

namespace Dxmt

namespace PipelineStream

open WhileLoop GraphSearch

/-- The two widths of a pointer that the code is built for. -/
inductive Platform
  | bits32
  | bits64
  deriving DecidableEq

/-- `sizeof(void *)`. -/
def Platform.pointer : Platform → Nat
  | bits32 => 4
  | bits64 => 8

/-- The types in the order of the enumeration. -/
inductive SubobjectType
  | rootSignature
  | vs
  | ps
  | ds
  | hs
  | gs
  | cs
  | streamOutput
  | blend
  | sampleMask
  | rasterizer
  | depthStencil
  | inputLayout
  | ibStripCutValue
  | primitiveTopology
  | renderTargetFormats
  | depthStencilFormat
  | sampleDesc
  | nodeMask
  | cachedPSO
  | flags
  | depthStencil1
  | viewInstancing
  deriving DecidableEq

/-- The types in the order of their numbers. -/
def subobjectTypes : List SubobjectType :=
  [.rootSignature, .vs, .ps, .ds, .hs, .gs, .cs, .streamOutput, .blend, .sampleMask, .rasterizer,
    .depthStencil, .inputLayout, .ibStripCutValue, .primitiveTopology, .renderTargetFormats,
      .depthStencilFormat, .sampleDesc,
    .nodeMask, .cachedPSO, .flags, .depthStencil1, .viewInstancing]

/-- The type of a number. -/
def subobjectType (type : Word) : Option SubobjectType :=
  subobjectTypes[type.toNat]?

/-- The size of the payload's type. -/
def SubobjectType.payloadSize (p : Platform) : SubobjectType → Nat
  | rootSignature => p.pointer
  | vs | ps | ds | hs | gs | cs => 2 * p.pointer
  | streamOutput =>
    match p with
    | .bits32 => 20
    | .bits64 => 32
  | blend => 328
  | sampleMask => 4
  | rasterizer => 44
  | depthStencil => 52
  | depthStencil1 => 56
  | inputLayout => 2 * p.pointer
  | ibStripCutValue => 4
  | primitiveTopology => 4
  | renderTargetFormats => 36
  | depthStencilFormat => 4
  | sampleDesc => 8
  | nodeMask => 4
  | cachedPSO => 2 * p.pointer
  | flags => 4
  | viewInstancing => 3 * p.pointer

/-- The alignment of the payload. -/
def SubobjectType.payloadAlignment (p : Platform) : SubobjectType → Nat
  | rootSignature | vs | ps | ds | hs | gs | cs | streamOutput | inputLayout | cachedPSO
      | viewInstancing =>
    p.pointer
  | _ => 4

/-- `PipelineStreamPayloadSize`. -/
def pipelineStreamPayloadSize (p : Platform) (type : Word) : Nat :=
  match subobjectType type with
  | some t => t.payloadSize p
  | none => 0

/-- `PipelineStreamPayloadAlignment`. -/
def pipelineStreamPayloadAlignment (p : Platform) (type : Word) : Nat :=
  match subobjectType type with
  | some t => t.payloadAlignment p
  | none => 0

/-! ## Descriptions -/

/-- The results of the parser. -/
inductive HResult
  | ok
  | invalidArg
  | notImpl
  deriving DecidableEq

/-- `D3D12_DEPTH_STENCIL_DESC1` with its defaults. -/
structure DepthStencilDesc where
  depthEnable : Word := 0
  depthWriteMask : Word := 0
  depthFunc : Word := 0
  stencilEnable : Word := 0
  stencilReadMask : Byte := 0
  stencilWriteMask : Byte := 0
  frontFace : List Byte := List.replicate 16 0
  backFace : List Byte := List.replicate 16 0
  deriving DecidableEq

/-- The payloads of a graphics pipeline. -/
structure GraphicsPipelineStateDesc where
  pRootSignature : List Byte
  vs : List Byte
  ps : List Byte
  ds : List Byte
  hs : List Byte
  gs : List Byte
  streamOutput : List Byte
  blendState : List Byte
  sampleMask : List Byte
  rasterizerState : List Byte
  depthStencilState : DepthStencilDesc
  inputLayout : List Byte
  ibStripCutValue : List Byte
  primitiveTopologyType : List Byte
  numRenderTargets : Word
  rtvFormats : List Word
  dsvFormat : List Byte
  sampleDesc : List Byte
  nodeMask : List Byte
  cachedPSO : List Byte
  flags : List Byte
  deriving DecidableEq

/-- The payloads of a compute pipeline. -/
structure ComputePipelineStateDesc where
  pRootSignature : List Byte
  cs : List Byte
  nodeMask : List Byte
  cachedPSO : List Byte
  flags : List Byte
  deriving DecidableEq

/-- What the stream describes, before one of the two pipelines is chosen. -/
structure PipelineDesc where
  graphics : GraphicsPipelineStateDesc
  compute : ComputePipelineStateDesc
  hasComputeShader : Bool
  deriving DecidableEq

/-- The bytes of a payload that is not given: zero, but for the three that the parser sets. -/
def defaultPayload (p : Platform) : SubobjectType → List Byte
  | .sampleMask => writeU32 0xffffffff
  | .sampleDesc => writeU32 1 ++ writeU32 0
  | .primitiveTopology => writeU32 3
  | t => List.replicate (t.payloadSize p) 0

/-- `HasBytecode`. -/
def hasBytecode (p : Platform) (shader : List Byte) : Bool :=
  (shader.take p.pointer).any (· ≠ 0) && ((shader.drop p.pointer).take p.pointer).any (· ≠ 0)

/-- The fields that both kinds of depth-stencil state have. -/
def depthStencilDesc (payload : List Byte) : DepthStencilDesc where
  depthEnable := readU32 payload 0
  depthWriteMask := readU32 payload 4
  depthFunc := readU32 payload 8
  stencilEnable := readU32 payload 12
  stencilReadMask := byteAt payload 16
  stencilWriteMask := byteAt payload 17
  frontFace := (payload.drop 20).take 16
  backFace := (payload.drop 36).take 16

/-- `D3D12_SIMULTANEOUS_RENDER_TARGET_COUNT`. -/
def simultaneousRenderTargetCount : Nat := 8

/-- The first formats of the array, as many as it says. -/
def rtvFormats (payload : List Byte) (old : List Word) : List Word :=
  (List.range simultaneousRenderTargetCount).map fun i =>
    if i < (readU32 payload 32).toNat then readU32 payload (4 * i) else old.getD i 0

/-- What the parser starts with. -/
def initialDesc (p : Platform) : PipelineDesc where
  graphics := {
    pRootSignature := defaultPayload p .rootSignature
    vs := defaultPayload p .vs
    ps := defaultPayload p .ps
    ds := defaultPayload p .ds
    hs := defaultPayload p .hs
    gs := defaultPayload p .gs
    streamOutput := defaultPayload p .streamOutput
    blendState := defaultPayload p .blend
    sampleMask := defaultPayload p .sampleMask
    rasterizerState := defaultPayload p .rasterizer
    depthStencilState := {}
    inputLayout := defaultPayload p .inputLayout
    ibStripCutValue := defaultPayload p .ibStripCutValue
    primitiveTopologyType := defaultPayload p .primitiveTopology
    numRenderTargets := 0
    rtvFormats := List.replicate simultaneousRenderTargetCount 0
    dsvFormat := defaultPayload p .depthStencilFormat
    sampleDesc := defaultPayload p .sampleDesc
    nodeMask := defaultPayload p .nodeMask
    cachedPSO := defaultPayload p .cachedPSO
    flags := defaultPayload p .flags }
  compute := {
    pRootSignature := defaultPayload p .rootSignature
    cs := defaultPayload p .cs
    nodeMask := defaultPayload p .nodeMask
    cachedPSO := defaultPayload p .cachedPSO
    flags := defaultPayload p .flags }
  hasComputeShader := false

/-- The payload goes into the description; the result is set where the switch returns. -/
def applyPayload (p : Platform) (d : PipelineDesc) (payload : List Byte) :
    SubobjectType → PipelineDesc × Option HResult
  | .rootSignature =>
    ({ d with
      graphics := { d.graphics with pRootSignature := payload }
      compute := { d.compute with pRootSignature := payload } }, none)
  | .vs => ({ d with graphics := { d.graphics with vs := payload } }, none)
  | .ps => ({ d with graphics := { d.graphics with ps := payload } }, none)
  | .ds => ({ d with graphics := { d.graphics with ds := payload } }, none)
  | .hs => ({ d with graphics := { d.graphics with hs := payload } }, none)
  | .gs => ({ d with graphics := { d.graphics with gs := payload } }, none)
  | .cs =>
    ({ d with
      compute := { d.compute with cs := payload }
      hasComputeShader := d.hasComputeShader || hasBytecode p payload }, none)
  | .streamOutput => ({ d with graphics := { d.graphics with streamOutput := payload } }, none)
  | .blend => ({ d with graphics := { d.graphics with blendState := payload } }, none)
  | .sampleMask => ({ d with graphics := { d.graphics with sampleMask := payload } }, none)
  | .rasterizer => ({ d with graphics := { d.graphics with rasterizerState := payload } }, none)
  | .depthStencil =>
    ({ d with graphics := { d.graphics with depthStencilState := depthStencilDesc payload } }, none)
  | .depthStencil1 =>
    ({ d with graphics := { d.graphics with depthStencilState := depthStencilDesc payload } },
      if readU32 payload 52 ≠ 0 then some .notImpl else none)
  | .inputLayout => ({ d with graphics := { d.graphics with inputLayout := payload } }, none)
  | .ibStripCutValue => ({ d with graphics := { d.graphics with ibStripCutValue := payload } },
      none)
  | .primitiveTopology => ({ d with graphics := { d.graphics with primitiveTopologyType :=
      payload } }, none)
  | .renderTargetFormats =>
    if simultaneousRenderTargetCount < (readU32 payload 32).toNat then (d, some .invalidArg)
    else
      ({ d with
        graphics := { d.graphics with
          numRenderTargets := readU32 payload 32
          rtvFormats := rtvFormats payload d.graphics.rtvFormats } }, none)
  | .depthStencilFormat => ({ d with graphics := { d.graphics with dsvFormat := payload } }, none)
  | .sampleDesc => ({ d with graphics := { d.graphics with sampleDesc := payload } }, none)
  | .nodeMask =>
    ({ d with
      graphics := { d.graphics with nodeMask := payload }
      compute := { d.compute with nodeMask := payload } }, none)
  | .cachedPSO =>
    ({ d with
      graphics := { d.graphics with cachedPSO := payload }
      compute := { d.compute with cachedPSO := payload } }, none)
  | .flags =>
    ({ d with
      graphics := { d.graphics with flags := payload }
      compute := { d.compute with flags := payload } }, none)
  | .viewInstancing => (d, if readU32 payload 0 ≠ 0 then some .notImpl else none)

/-- What of a payload is read, as offset in it and length. -/
def payloadReads (p : Platform) (payload : List Byte) : SubobjectType → List (Nat × Nat)
  | .depthStencil1 => [(0, 18), (20, 36)]
  | .renderTargetFormats =>
    (32, 4) ::
      if simultaneousRenderTargetCount < (readU32 payload 32).toNat then []
      else [(0, 4 * (readU32 payload 32).toNat)]
  | .viewInstancing => [(0, 4)]
  | t => [(0, t.payloadSize p)]

/-! ## The parser -/

/-- A stream, whose size is a `size_t`. -/
structure Stream (p : Platform) where
  bytes : List Byte
  fits : bytes.length < 2 ^ (8 * p.pointer)

/-- The locals of the parser. -/
structure ParseState (p : Platform) where
  offset : Nat := 0
  seenSubobjects : List SubobjectType := []
  desc : PipelineDesc := initialDesc p
  reads : List (Nat × Nat) := []
  /-- The result, once the parser has returned. -/
  result : Option HResult := none

/-- A difference of two `size_t`. -/
def subtract (p : Platform) (a b : Nat) : Nat :=
  (a + 2 ^ (8 * p.pointer) - b) % 2 ^ (8 * p.pointer)

/-- `AlignStreamOffset`, in the width of `size_t`. -/
def alignStreamOffset (p : Platform) (value alignment : Nat) : Nat :=
  Nat.ldiff ((value + alignment - 1) % 2 ^ (8 * p.pointer)) (alignment - 1)

/-- `FailPipelineStreamParse`. -/
def failPipelineStreamParse {p : Platform} (s : ParseState p) (hr : HResult) : ParseState p :=
  { s with result := some hr }

variable {p : Platform}

/-- What the loop does with a payload that it takes. -/
def takePayload (stream : Stream p) (s : ParseState p) (offset : Nat) (t : SubobjectType) :
    ParseState p :=
  let payload := (stream.bytes.drop offset).take (t.payloadSize p)
  let (desc, result) := applyPayload p s.desc payload t
  { offset := alignStreamOffset p ((offset + t.payloadSize p) % 2 ^ (8 * p.pointer)) p.pointer
    seenSubobjects := s.seenSubobjects ++ [t]
    desc
    reads := s.reads ++ (payloadReads p payload t).map fun (at', length) => (offset + at', length)
    result }

/-- The body of the loop. -/
def parseSubobject (stream : Stream p) (s : ParseState p) : ParseState p :=
  if subtract p stream.bytes.length s.offset < 4 then failPipelineStreamParse s .invalidArg
  else
    let type := readU32 stream.bytes s.offset
    let s := { s with reads := s.reads ++ [(s.offset, 4)] }
    let payloadSize := pipelineStreamPayloadSize p type
    let payloadAlignment := pipelineStreamPayloadAlignment p type
    if payloadSize = 0 || payloadAlignment = 0 then failPipelineStreamParse s .invalidArg
    else
      let offset := alignStreamOffset p ((s.offset + 4) % 2 ^ (8 * p.pointer)) payloadAlignment
      if subtract p stream.bytes.length offset < payloadSize then
          failPipelineStreamParse s .invalidArg
      else
        match subobjectType type with
        | none => failPipelineStreamParse s .invalidArg
        | some t =>
          if t ∈ s.seenSubobjects then failPipelineStreamParse s .invalidArg
          else takePayload stream s offset t

/-- What is checked after the loop. -/
def finish (s : ParseState p) : HResult :=
  if s.desc.hasComputeShader &&
      (hasBytecode p s.desc.graphics.vs || hasBytecode p s.desc.graphics.ds ||
      hasBytecode p s.desc.graphics.hs || hasBytecode p s.desc.graphics.gs) then .invalidArg
  else .ok

/-- One turn of the loop, or the end of it. -/
def parseStep (stream : Stream p) (s : ParseState p) : Option (ParseState p) :=
  if s.result.isSome then none
  else if s.offset < stream.bytes.length then some (parseSubobject stream s)
  else some { s with result := some (finish s) }

/-- What ends the loop: the types not yet seen, and whether it has returned. -/
def ParseState.measure (s : ParseState p) : Nat × Nat :=
  (unseen subobjectTypes s.seenSubobjects, if s.result.isSome then 0 else 1)

theorem lower_of_result {s s' : ParseState p} (hs : s.result.isSome = false)
    (hseen : s.seenSubobjects ⊆ s'.seenSubobjects) (hs' : s'.result.isSome = true) :
    Lower ParseState.measure s' s := by
  refine lower_of_le (unseen_le hseen) ?_
  simp only [ParseState.measure, hs, hs']
  decide

theorem mem_subobjectTypes (t : SubobjectType) : t ∈ subobjectTypes := by
  cases t <;> decide

/-- A subobject is a type that had not been seen, or the end. -/
theorem parseSubobject_lower (stream : Stream p) {s : ParseState p} (hs : s.result.isSome = false) :
    Lower ParseState.measure (parseSubobject stream s) s := by
  have hfail : ∀ (s' : ParseState p) (hr : HResult), s'.seenSubobjects = s.seenSubobjects →
      Lower ParseState.measure (failPipelineStreamParse s' hr) s := fun s' hr hseen =>
    lower_of_result hs (hseen ▸ List.Subset.refl _) rfl
  unfold parseSubobject
  split
  · exact hfail s _ rfl
  · dsimp only
    split
    · exact hfail _ _ rfl
    · split
      · exact hfail _ _ rfl
      · split
        · exact hfail _ _ rfl
        · next t _ =>
          split
          · exact hfail _ _ rfl
          · next hnew =>
            exact lower_of_lt (unseen_lt (List.subset_append_left _ _) (mem_subobjectTypes t) hnew
              (List.mem_append_right _ (List.mem_singleton_self t)))

/-- Every turn of the loop comes closer to its end. -/
theorem parseStep_lower (stream : Stream p) (s s' : ParseState p)
    (h : parseStep stream s = some s') :
    Lower ParseState.measure s' s := by
  unfold parseStep at h
  split at h
  · cases h
  · next hs =>
    rw [Bool.not_eq_true] at hs
    split at h
    · cases h
      exact parseSubobject_lower stream hs
    · cases h
      exact lower_of_result hs (List.Subset.refl _) rfl

/-- `ParsePipelineStateStream`. -/
def parsePipelineStateStream (stream : Stream p) : ParseState p :=
  if stream.bytes.length = 0 then { result := some .invalidArg }
  else run (lower_wf _) (parseStep_lower stream) {}

/-! ## Streams as lists of subobjects -/

/-- A type with a payload of its size. -/
structure Subobject (p : Platform) where
  type : SubobjectType
  payload : List Byte
  size : payload.length = type.payloadSize p

/-- Where the payload of a subobject at an offset is. -/
def payloadOffset (p : Platform) (offset : Nat) (t : SubobjectType) : Nat :=
  align (offset + 4) (t.payloadAlignment p)

/-- Where the next subobject is. -/
def nextOffset (p : Platform) (offset : Nat) (t : SubobjectType) : Nat :=
  align (payloadOffset p offset t + t.payloadSize p) p.pointer

/-- The subobject is in the bytes at the offset. -/
structure Subobject.At (subobject : Subobject p) (bytes : List Byte) (offset : Nat) : Prop where
  type : subobjectType (readU32 bytes offset) = some subobject.type
  within : payloadOffset p offset subobject.type + subobject.type.payloadSize p ≤ bytes.length
  payload : (bytes.drop (payloadOffset p offset subobject.type)).take
    (subobject.type.payloadSize p) =
    subobject.payload

/-- The subobjects are laid out one after the other from the offset on. -/
def LaidOut (bytes : List Byte) : Nat → List (Subobject p) → Nat → Prop
  | offset, [], last => offset = last
  | offset, subobject :: subobjects, last =>
    subobject.At bytes offset ∧ LaidOut bytes (nextOffset p offset subobject.type) subobjects last

/-- The stream is this list of subobjects. -/
def Stream.Is (stream : Stream p) (subobjects : List (Subobject p)) : Prop :=
  ∃ last, LaidOut stream.bytes 0 subobjects last ∧ stream.bytes.length ≤ last

/-- The types of the subobjects, in order. -/
def types (subobjects : List (Subobject p)) : List SubobjectType :=
  subobjects.map (·.type)

/-- No unsupported feature is asked for in the payload: no depth bounds test, at most eight render
targets, and no view instances. -/
def Subobject.Supported (subobject : Subobject p) : Prop :=
  (subobject.type = .depthStencil1 → readU32 subobject.payload 52 = 0) ∧
  (subobject.type = .renderTargetFormats →
    (readU32 subobject.payload 32).toNat ≤ simultaneousRenderTargetCount) ∧
  (subobject.type = .viewInstancing → readU32 subobject.payload 0 = 0)

/-- The payload of the subobject of a type, if it is listed. -/
def find (subobjects : List (Subobject p)) (t : SubobjectType) : Option (List Byte) :=
  (subobjects.find? fun subobject => subobject.type = t).map (·.payload)

/-- The payload of a type, or the default. -/
def payloadOf (p : Platform) (find : SubobjectType → Option (List Byte)) (t : SubobjectType) :
    List Byte :=
  (find t).getD (defaultPayload p t)

/-- No shader with bytecode of the vertex pipeline is listed beside one of the compute pipeline. -/
def Unmixed (subobjects : List (Subobject p)) : Prop :=
  hasBytecode p (payloadOf p (find subobjects) .cs) = true →
    ∀ t ∈ [SubobjectType.vs, .ds, .hs, .gs], hasBytecode p (payloadOf p (find subobjects) t) = false

/-- The subobjects are distinct, supported, and not both kinds of depth-stencil state. -/
structure Valid (subobjects : List (Subobject p)) : Prop where
  distinct : (types subobjects).Nodup
  supported : ∀ subobject ∈ subobjects, subobject.Supported
  depthStencil : ¬(.depthStencil ∈ types subobjects ∧ .depthStencil1 ∈ types subobjects)
  unmixed : Unmixed subobjects

/-- The depth-stencil state of the one kind that is listed, or the default. -/
def depthStencilOf (find : SubobjectType → Option (List Byte)) : DepthStencilDesc :=
  match find .depthStencil, find .depthStencil1 with
  | some payload, _ => depthStencilDesc payload
  | none, some payload => depthStencilDesc payload
  | none, none => {}

/-- Every payload that is found is in the description, and the default of every other one. The
formats of render targets are those that their number covers. -/
def describeFound (p : Platform) (find : SubobjectType → Option (List Byte)) : PipelineDesc where
  graphics := {
    pRootSignature := payloadOf p find .rootSignature
    vs := payloadOf p find .vs
    ps := payloadOf p find .ps
    ds := payloadOf p find .ds
    hs := payloadOf p find .hs
    gs := payloadOf p find .gs
    streamOutput := payloadOf p find .streamOutput
    blendState := payloadOf p find .blend
    sampleMask := payloadOf p find .sampleMask
    rasterizerState := payloadOf p find .rasterizer
    depthStencilState := depthStencilOf find
    inputLayout := payloadOf p find .inputLayout
    ibStripCutValue := payloadOf p find .ibStripCutValue
    primitiveTopologyType := payloadOf p find .primitiveTopology
    numRenderTargets := readU32 (payloadOf p find .renderTargetFormats) 32
    rtvFormats := rtvFormats (payloadOf p find .renderTargetFormats)
      (List.replicate simultaneousRenderTargetCount 0)
    dsvFormat := payloadOf p find .depthStencilFormat
    sampleDesc := payloadOf p find .sampleDesc
    nodeMask := payloadOf p find .nodeMask
    cachedPSO := payloadOf p find .cachedPSO
    flags := payloadOf p find .flags }
  compute := {
    pRootSignature := payloadOf p find .rootSignature
    cs := payloadOf p find .cs
    nodeMask := payloadOf p find .nodeMask
    cachedPSO := payloadOf p find .cachedPSO
    flags := payloadOf p find .flags }
  hasComputeShader := hasBytecode p (payloadOf p find .cs)

/-- **What the list stands for**: every listed subobject has its payload, and every other one its
default. -/
def describe (subobjects : List (Subobject p)) : PipelineDesc :=
  describeFound p (find subobjects)

/-! ## Offsets -/

theorem align_four (value : Nat) : align value 4 = (value + 3) / 4 * 4 :=
  align_two_pow value 2

theorem align_eight (value : Nat) : align value 8 = (value + 7) / 8 * 8 :=
  align_two_pow value 3

theorem pointer_eq (p : Platform) : p.pointer = 4 ∨ p.pointer = 8 := by
  cases p
  · exact .inl rfl
  · exact .inr rfl

/-- A payload is aligned to four or to eight bytes. -/
theorem alignment_eq (p : Platform) (t : SubobjectType) :
    t.payloadAlignment p = 4 ∨ t.payloadAlignment p = 8 := by
  cases p <;> cases t <;> decide

/-- No payload is empty, none is large. -/
theorem payloadSize_bounds (p : Platform) (t : SubobjectType) :
    4 ≤ t.payloadSize p ∧ t.payloadSize p ≤ 328 := by
  cases p <;> cases t <;> decide

theorem align_bounds {alignment : Nat} (h : alignment = 4 ∨ alignment = 8) (value : Nat) :
    value ≤ align value alignment ∧ align value alignment < value + 8 := by
  rcases h with rfl | rfl
  · rw [align_four]
    omega
  · rw [align_eight]
    omega

theorem modulus_ge (p : Platform) : 2 ^ 32 ≤ 2 ^ (8 * p.pointer) :=
  Nat.pow_le_pow_right (by decide) (by rcases pointer_eq p with h | h <;> omega)

/-- A small offset is aligned without wrapping. -/
theorem alignStreamOffset_eq (p : Platform) {value alignment : Nat}
    (h : alignment = 4 ∨ alignment = 8)
    (hvalue : value < 2 ^ 31) : alignStreamOffset p value alignment = align value alignment := by
  have hmodulus := modulus_ge p
  unfold alignStreamOffset align
  rw [Nat.mod_eq_of_lt (by omega)]

theorem subtract_of_le (stream : Stream p) {offset : Nat} (h : offset ≤ stream.bytes.length) :
    subtract p stream.bytes.length offset = stream.bytes.length - offset := by
  have hfits := stream.fits
  unfold subtract
  rw [Nat.add_comm, Nat.add_sub_assoc h, Nat.add_mod_left]
  exact Nat.mod_eq_of_lt (by omega)

/-- Past the end the difference wraps around to a large number. -/
theorem subtract_of_lt (stream : Stream p) {offset : Nat} (h : stream.bytes.length < offset)
    (hnear : offset < stream.bytes.length + 12) : 328 ≤ subtract p stream.bytes.length offset := by
  have hmodulus := modulus_ge p
  have hfits := stream.fits
  unfold subtract
  rw [Nat.mod_eq_of_lt (by omega)]
  omega

/-- The payload follows its type within a few bytes. -/
theorem payloadOffset_bounds (p : Platform) (offset : Nat) (t : SubobjectType) :
    offset + 4 ≤ payloadOffset p offset t ∧ payloadOffset p offset t < offset + 12 :=
  align_bounds (alignment_eq p t) (offset + 4)

theorem nextOffset_bounds (p : Platform) (offset : Nat) (t : SubobjectType) :
    payloadOffset p offset t + t.payloadSize p ≤ nextOffset p offset t ∧
      nextOffset p offset t < offset + 352 := by
  have hnext := align_bounds (pointer_eq p) (payloadOffset p offset t + t.payloadSize p)
  have hpayload := payloadOffset_bounds p offset t
  have hsize := payloadSize_bounds p t
  unfold nextOffset
  omega

theorem LaidOut.append {bytes : List Byte} {offset middle last : Nat} {xs ys : List (Subobject p)}
    (h : LaidOut bytes offset xs middle) (h' : LaidOut bytes middle ys last) :
    LaidOut bytes offset (xs ++ ys) last := by
  induction xs generalizing offset with
  | nil =>
    cases h
    exact h'
  | cons x xs ih => exact ⟨h.1, ih h.2⟩

/-- The stream is not longer than its subobjects. -/
theorem LaidOut.bound {bytes : List Byte} {offset last : Nat} {subobjects : List (Subobject p)}
    (h : LaidOut bytes offset subobjects last) : last ≤ offset + 352 * subobjects.length := by
  induction subobjects generalizing offset with
  | nil => exact Nat.le_of_eq (Eq.symm h)
  | cons subobject subobjects ih =>
    have hnext := nextOffset_bounds p offset subobject.type
    have hrest := ih h.2
    rw [List.length_cons]
    omega

/-- There are 23 types, so the offset stays small. -/
theorem LaidOut.small {bytes : List Byte} {last : Nat} {subobjects : List (Subobject p)}
    (hdistinct : (types subobjects).Nodup) (h : LaidOut bytes 0 subobjects last) :
    last ≤ 352 * 23 := by
  have hlength : subobjects.length ≤ 23 := by
    have hsub : List.Subperm (types subobjects) subobjectTypes :=
      List.subperm_of_subset hdistinct fun t _ => mem_subobjectTypes t
    have hle := hsub.length_le
    rwa [types, List.length_map] at hle
  have hbound := h.bound
  omega

/-! ## The body of the loop -/

/-- The state after the type at the offset has been read. -/
def ParseState.readType (s : ParseState p) : ParseState p :=
  { s with reads := s.reads ++ [(s.offset, 4)] }

/-- A type that is cut off is refused. -/
theorem parseSubobject_short (stream : Stream p) {s : ParseState p}
    (hs : s.offset < stream.bytes.length) (h : stream.bytes.length < s.offset + 4) :
    parseSubobject stream s = failPipelineStreamParse s .invalidArg := by
  have hsub := subtract_of_le stream (Nat.le_of_lt hs)
  exact if_pos (by omega)

/-- A type without a meaning is refused. -/
theorem parseSubobject_unknown (stream : Stream p) {s : ParseState p}
    (h : s.offset + 4 ≤ stream.bytes.length)
    (ht : subobjectType (readU32 stream.bytes s.offset) = none) :
    parseSubobject stream s = failPipelineStreamParse s.readType .invalidArg := by
  have hsub := @subtract_of_le _ stream s.offset (by omega)
  have hsize : pipelineStreamPayloadSize p (readU32 stream.bytes s.offset) = 0 := by
    rw [pipelineStreamPayloadSize, ht]
  unfold parseSubobject
  rw [if_neg (by omega)]
  dsimp only
  rw [if_pos (by rw [hsize]; rfl)]
  rfl

/-- A payload that starts past the end is not seen to be truncated. -/
theorem parseSubobject_known (stream : Stream p) {s : ParseState p} {t : SubobjectType}
    (h : s.offset + 4 ≤ stream.bytes.length) (hsmall : s.offset ≤ 352 * 23)
    (ht : subobjectType (readU32 stream.bytes s.offset) = some t) :
    parseSubobject stream s =
      if payloadOffset p s.offset t ≤ stream.bytes.length ∧
          stream.bytes.length < payloadOffset p s.offset t + t.payloadSize p then
        failPipelineStreamParse s.readType .invalidArg
      else if t ∈ s.seenSubobjects then failPipelineStreamParse s.readType .invalidArg
      else takePayload stream s.readType (payloadOffset p s.offset t) t := by
  have hmodulus := modulus_ge p
  have hsub := @subtract_of_le _ stream s.offset (by omega)
  have hsize : pipelineStreamPayloadSize p (readU32 stream.bytes s.offset) = t.payloadSize p := by
    rw [pipelineStreamPayloadSize, ht]
  have halignment :
      pipelineStreamPayloadAlignment p (readU32 stream.bytes s.offset) = t.payloadAlignment p := by
    rw [pipelineStreamPayloadAlignment, ht]
  have hsizes := payloadSize_bounds p t
  have halignments := alignment_eq p t
  have hoffsets := payloadOffset_bounds p s.offset t
  have hoffset : alignStreamOffset p ((s.offset + 4) % 2 ^ (8 * p.pointer)) (t.payloadAlignment p) =
      payloadOffset p s.offset t := by
    rw [Nat.mod_eq_of_lt (by omega)]
    exact alignStreamOffset_eq p halignments (by omega)
  unfold parseSubobject
  rw [if_neg (by omega)]
  dsimp only
  rw [hsize, halignment, hoffset, ht,
    if_neg (by rw [Bool.or_eq_true, decide_eq_true_eq, decide_eq_true_eq]; omega)]
  dsimp only
  by_cases hin : payloadOffset p s.offset t ≤ stream.bytes.length
  · have hdifference := subtract_of_le stream hin
    by_cases htruncated : stream.bytes.length < payloadOffset p s.offset t + t.payloadSize p
    · rw [if_pos (by omega), if_pos ⟨hin, htruncated⟩]
      rfl
    · have hnot : ¬(payloadOffset p s.offset t ≤ stream.bytes.length ∧
          stream.bytes.length < payloadOffset p s.offset t + t.payloadSize p) := fun hboth =>
            htruncated hboth.2
      rw [if_neg (by omega), if_neg hnot]
      rfl
  · have hdifference := subtract_of_lt stream (Nat.not_le.mp hin) (by omega)
    have hnot : ¬(payloadOffset p s.offset t ≤ stream.bytes.length ∧
        stream.bytes.length < payloadOffset p s.offset t + t.payloadSize p) := fun hboth =>
          hin hboth.1
    rw [if_neg (by omega), if_neg hnot]
    rfl

theorem takePayload_offset (stream : Stream p) (s : ParseState p) {offset : Nat} {t : SubobjectType}
    (hsmall : offset ≤ 352 * 23) :
    (takePayload stream s (payloadOffset p offset t) t).offset = nextOffset p offset t := by
  have hmodulus := modulus_ge p
  have hoffsets := payloadOffset_bounds p offset t
  have hsizes := payloadSize_bounds p t
  unfold takePayload
  dsimp only
  rw [Nat.mod_eq_of_lt (by omega)]
  exact alignStreamOffset_eq p (pointer_eq p) (by omega)

/-- What is read of a payload is in it, and something is read. -/
theorem payloadReads_le (p : Platform) (payload : List Byte) (t : SubobjectType) :
    (∀ read ∈ payloadReads p payload t, read.1 + read.2 ≤ t.payloadSize p) ∧
      ∃ read ∈ payloadReads p payload t, 0 < read.2 := by
  have hsize := payloadSize_bounds p t
  unfold payloadReads
  split
  · exact ⟨by cases p <;> decide, (0, 18), .head _, by decide⟩
  · refine ⟨fun read hread => ?_, (32, 4), .head _, by decide⟩
    rcases List.mem_cons.mp hread with rfl | hread
    · exact Nat.le_refl 36
    · split at hread
      · cases hread
      · next hcount =>
        rw [List.mem_singleton.mp hread]
        unfold simultaneousRenderTargetCount at hcount
        show 0 + 4 * _ ≤ 36
        omega
  · refine ⟨fun read hread => ?_, (0, 4), .head _, by decide⟩
    rw [List.mem_singleton.mp hread]
    omega
  · refine ⟨fun read hread => ?_, _, .head _, by omega⟩
    rw [List.mem_singleton.mp hread]
    omega

/-- The result is set exactly where the payload asks for something that is not supported, and never
to success. -/
theorem applyPayload_result (d : PipelineDesc) (subobject : Subobject p) :
    ((applyPayload p d subobject.payload subobject.type).2 = none ↔ subobject.Supported) ∧
      (applyPayload p d subobject.payload subobject.type).2 ≠ some .ok := by
  obtain ⟨t, payload, size⟩ := subobject
  unfold Subobject.Supported
  cases t
  case depthStencil1 =>
    simp only [applyPayload]
    by_cases h : readU32 payload 52 = 0 <;> simp [h]
  case renderTargetFormats =>
    simp only [applyPayload]
    by_cases h : simultaneousRenderTargetCount < (readU32 payload 32).toNat
    · simp [h]
    · simp [h, Nat.not_lt.mp h]
  case viewInstancing =>
    simp only [applyPayload]
    by_cases h : readU32 payload 0 = 0 <;> simp [h]
  all_goals exact ⟨iff_of_true rfl ⟨nofun, nofun, nofun⟩, nofun⟩

/-! ## What is accepted -/

/-- The state after the subobjects have been taken. -/
structure Parsed (stream : Stream p) (s : ParseState p) (subobjects : List (Subobject p)) :
    Prop where
  going : s.result = none
  laidOut : LaidOut stream.bytes 0 subobjects s.offset
  distinct : (types subobjects).Nodup
  supported : ∀ subobject ∈ subobjects, subobject.Supported
  seen : s.seenSubobjects = types subobjects
  desc : s.desc = subobjects.foldl
    (fun d subobject => (applyPayload p d subobject.payload subobject.type).1) (initialDesc p)

/-- After some subobjects, all distinct and supported, the stream ends behind the type of another
one, before its payload would begin. -/
def Stream.Overrun (stream : Stream p) : Prop :=
  ∃ (subobjects : List (Subobject p)) (offset : Nat) (t : SubobjectType),
    (types subobjects).Nodup ∧ (∀ subobject ∈ subobjects, subobject.Supported) ∧
    LaidOut stream.bytes 0 subobjects offset ∧ offset + 4 ≤ stream.bytes.length ∧
    subobjectType (readU32 stream.bytes offset) = some t ∧ t ∉ types subobjects ∧
    stream.bytes.length < payloadOffset p offset t

/-- What the loop keeps. -/
structure Inv (stream : Stream p) (s : ParseState p) : Prop where
  inBounds : ∀ read ∈ s.reads, read.1 + read.2 ≤ stream.bytes.length
  parsed : s.result = none → ∃ subobjects, Parsed stream s subobjects
  accepted : s.result = some .ok →
    ∃ subobjects : List (Subobject p), (types subobjects).Nodup ∧ stream.Is subobjects

/-- A refusal reads nothing. -/
theorem Inv.fail {stream : Stream p} {s : ParseState p} (h : Inv stream s) :
    Inv stream (failPipelineStreamParse s .invalidArg) where
  inBounds := h.inBounds
  parsed := nofun
  accepted := nofun

theorem Inv.readType {stream : Stream p} {s : ParseState p} (h : Inv stream s)
    (hs : s.offset + 4 ≤ stream.bytes.length) : Inv stream s.readType where
  inBounds read hread := by
    rcases List.mem_append.mp hread with hread | hread
    · exact h.inBounds read hread
    · rw [List.mem_singleton.mp hread]
      exact hs
  parsed hresult := by
    obtain ⟨subobjects, hparsed⟩ := h.parsed hresult
    exact ⟨subobjects, hparsed.going, hparsed.laidOut, hparsed.distinct, hparsed.supported,
      hparsed.seen, hparsed.desc⟩
  accepted := h.accepted

/-- Where the type of `t` has been read, its payload as a subobject. -/
def Stream.subobject (stream : Stream p) (offset : Nat) (t : SubobjectType)
    (h : payloadOffset p offset t + t.payloadSize p ≤ stream.bytes.length) : Subobject p where
  type := t
  payload := (stream.bytes.drop (payloadOffset p offset t)).take (t.payloadSize p)
  size := by
    rw [List.length_take, List.length_drop]
    omega

theorem Parsed.take {stream : Stream p} {s : ParseState p} {subobjects : List (Subobject p)}
    (h : Parsed stream s subobjects) {subobject : Subobject p}
    (hat : subobject.At stream.bytes s.offset) (hnew : subobject.type ∉ types subobjects)
    (hsupported : subobject.Supported) :
    Parsed stream (takePayload stream s.readType (payloadOffset p s.offset subobject.type)
      subobject.type)
      (subobjects ++ [subobject]) := by
  have hsmall := LaidOut.small h.distinct h.laidOut
  have hoffset := takePayload_offset stream s.readType hsmall (t := subobject.type)
  refine ⟨?_, ?_, ?_, ?_, ?_, ?_⟩
  · simp only [takePayload, hat.payload]
    exact (applyPayload_result _ subobject).1.mpr hsupported
  · rw [hoffset]
    exact h.laidOut.append ⟨hat, rfl⟩
  · rw [types, List.map_append]
    exact List.nodup_append_comm.mp (List.nodup_cons.mpr ⟨hnew, h.distinct⟩)
  · intro other hother
    rcases List.mem_append.mp hother with hother | hother
    · exact h.supported other hother
    · exact List.mem_singleton.mp hother ▸ hsupported
  · rw [types, List.map_append]
    exact congrArg (· ++ [subobject.type]) h.seen
  · simp only [takePayload, hat.payload, List.foldl_append, ← h.desc]
    rfl

/-- A payload that is there is read inside the stream. -/
theorem Inv.take {stream : Stream p} {s : ParseState p} (h : Inv stream s) (hs : s.result = none)
    {t : SubobjectType} (ht : subobjectType (readU32 stream.bytes s.offset) = some t)
    (hin : payloadOffset p s.offset t + t.payloadSize p ≤ stream.bytes.length)
    (hnew : t ∉ s.seenSubobjects) :
    Inv stream (takePayload stream s.readType (payloadOffset p s.offset t) t) := by
  obtain ⟨subobjects, hparsed⟩ := h.parsed hs
  have hoffsets := payloadOffset_bounds p s.offset t
  have hat : (stream.subobject s.offset t hin).At stream.bytes s.offset := ⟨ht, hin, rfl⟩
  have hresult := applyPayload_result s.desc (stream.subobject s.offset t hin)
  refine ⟨fun read hread => ?_, fun hnone => ?_, fun hok => absurd hok hresult.2⟩
  · rcases List.mem_append.mp hread with hread | hread
    · exact (h.readType (by omega)).inBounds read hread
    · obtain ⟨inner, hinner, rfl⟩ := List.mem_map.mp hread
      have hle := (payloadReads_le p _ t).1 inner hinner
      show payloadOffset p s.offset t + inner.1 + inner.2 ≤ stream.bytes.length
      omega
  · have hsupported : (stream.subobject s.offset t hin).Supported := hresult.1.mp hnone
    have hunseen : t ∉ types subobjects := hparsed.seen ▸ hnew
    have htake := hparsed.take hat hunseen hsupported
    have htype : (stream.subobject s.offset t hin).type = t := rfl
    rw [htype] at htake
    exact ⟨_, htake⟩

/-- One turn of the loop keeps the invariant. -/
theorem Inv.step {stream : Stream p} (hno : ¬stream.Overrun) (s s' : ParseState p)
    (h : Inv stream s) (hs : parseStep stream s = some s') : Inv stream s' := by
  unfold parseStep at hs
  split at hs
  · cases hs
  · next hgoing =>
    have hgoing : s.result = none := by simpa using hgoing
    obtain ⟨subobjects, hparsed⟩ := h.parsed hgoing
    have hsmall := LaidOut.small hparsed.distinct hparsed.laidOut
    split at hs
    · next hlt =>
      cases hs
      by_cases hshort : stream.bytes.length < s.offset + 4
      · rw [parseSubobject_short stream hlt hshort]
        exact h.fail
      have htype : s.offset + 4 ≤ stream.bytes.length := Nat.not_lt.mp hshort
      cases ht : subobjectType (readU32 stream.bytes s.offset) with
      | none =>
        rw [parseSubobject_unknown stream htype ht]
        exact (h.readType htype).fail
      | some t =>
        rw [parseSubobject_known stream htype hsmall ht]
        split
        · exact (h.readType htype).fail
        · next hfits =>
          split
          · exact (h.readType htype).fail
          · next hnew =>
            have hstart : payloadOffset p s.offset t ≤ stream.bytes.length := by
              by_contra hpast
              exact hno ⟨subobjects, s.offset, t, hparsed.distinct, hparsed.supported,
                hparsed.laidOut, htype, ht, hparsed.seen ▸ hnew, Nat.not_le.mp hpast⟩
            exact h.take hgoing ht (Nat.not_lt.mp fun hlong => hfits ⟨hstart, hlong⟩) hnew
    · next hend =>
      cases hs
      exact ⟨h.inBounds, nofun, fun _ =>
        ⟨subobjects, hparsed.distinct, s.offset, hparsed.laidOut, Nat.not_lt.mp hend⟩⟩

theorem Parsed.initial (stream : Stream p) : Parsed stream {} [] :=
  ⟨rfl, rfl, List.nodup_nil, nofun, rfl, rfl⟩

theorem Inv.initial (stream : Stream p) : Inv stream {} where
  inBounds := nofun
  parsed _ := ⟨[], Parsed.initial stream⟩
  accepted := nofun

/-- The loop ends with a result. -/
theorem result_of_parseStep {stream : Stream p} {s : ParseState p} (h : parseStep stream s = none) :
    s.result.isSome = true := by
  unfold parseStep at h
  split at h
  · assumption
  · split at h <;> cases h

/-! ## What a list of subobjects gives -/

/-- The description after more subobjects. -/
def applyAll (d : PipelineDesc) (subobjects : List (Subobject p)) : PipelineDesc :=
  subobjects.foldl (fun d subobject => (applyPayload p d subobject.payload subobject.type).1) d

/-- A turn takes the next subobject of a valid stream. -/
theorem parseStep_take {stream : Stream p} {s : ParseState p} {done : List (Subobject p)}
    (hs : Parsed stream s done) {subobject : Subobject p} (hat : subobject.At stream.bytes s.offset)
    (hnew : subobject.type ∉ types done) :
    parseStep stream s =
      some (takePayload stream s.readType (payloadOffset p s.offset subobject.type)
        subobject.type) := by
  have hsmall := LaidOut.small hs.distinct hs.laidOut
  have hoffsets := payloadOffset_bounds p s.offset subobject.type
  have hwithin := hat.within
  unfold parseStep
  rw [hs.going, if_neg (by decide), if_pos (by omega),
    parseSubobject_known stream (by omega) hsmall hat.type, if_neg fun h =>
      Nat.not_lt.mpr hwithin h.2,
    if_neg (hs.seen ▸ hnew)]

/-- From a state in which some subobjects have been taken, more of them are taken. -/
theorem run_take {stream : Stream p} (rest : List (Subobject p)) (s : ParseState p)
    (done : List (Subobject p)) (hs : Parsed stream s done) {last : Nat}
    (hlaid : LaidOut stream.bytes s.offset rest last) (hdistinct : (types (done ++ rest)).Nodup)
    (hsupported : ∀ subobject ∈ rest, subobject.Supported) :
    ∃ s' : ParseState p, Parsed stream s' (done ++ rest) ∧ s'.offset = last ∧
      run (lower_wf _) (parseStep_lower stream) s =
        run (lower_wf _) (parseStep_lower stream) s' := by
  induction rest generalizing s done with
  | nil =>
    rw [List.append_nil]
    exact ⟨s, hs, hlaid, rfl⟩
  | cons subobject rest ih =>
    have hnew : subobject.type ∉ types done := by
      rw [types, List.map_append, List.nodup_append] at hdistinct
      exact fun hmem => hdistinct.2.2 _ hmem _ List.mem_cons_self rfl
    have hnext := hs.take hlaid.1 hnew (hsupported subobject List.mem_cons_self)
    have hoffset := takePayload_offset stream s.readType
      (LaidOut.small hs.distinct hs.laidOut) (t := subobject.type)
    obtain ⟨s', hparsed, hlast, hrun⟩ := ih _ (done ++ [subobject]) hnext (hoffset ▸ hlaid.2)
      (by rwa [List.append_assoc]) fun other hother => hsupported other
      (List.mem_cons_of_mem _ hother)
    rw [List.append_assoc] at hparsed
    exact ⟨s', hparsed, hlast, (run_of_some _ _ (parseStep_take hs hlaid.1 hnew)).trans hrun⟩

/-- A type has the payload of the one subobject of the type. -/
theorem find_eq_some {subobjects : List (Subobject p)} (hdistinct : (types subobjects).Nodup)
    {t : SubobjectType} {payload : List Byte} : find subobjects t = some payload ↔
      ∃ subobject ∈ subobjects, subobject.type = t ∧ subobject.payload = payload := by
  unfold find
  rw [Option.map_eq_some_iff]
  constructor
  · rintro ⟨subobject, hfind, rfl⟩
    exact ⟨subobject, List.mem_of_find?_eq_some hfind, by simpa using List.find?_some hfind, rfl⟩
  · rintro ⟨subobject, hmem, htype, rfl⟩
    have hsome : (subobjects.find? fun other => other.type = t).isSome := by
      rw [List.find?_isSome]
      exact ⟨subobject, hmem, by simpa using htype⟩
    obtain ⟨found, hfound⟩ := Option.isSome_iff_exists.mp hsome
    have hfoundType : found.type = t := by simpa using List.find?_some hfound
    have heq := List.inj_on_of_nodup_map hdistinct (List.mem_of_find?_eq_some hfound) hmem
      (hfoundType.trans htype.symm)
    exact ⟨found, hfound, congrArg Subobject.payload heq⟩

/-- The order of the subobjects does not matter. -/
theorem find_perm {xs ys : List (Subobject p)} (h : xs.Perm ys) (hdistinct : (types xs).Nodup) :
    find xs = find ys := by
  have hdistinct' : (types ys).Nodup := (h.map _).nodup_iff.mp hdistinct
  funext t
  refine Option.ext fun payload => ?_
  rw [find_eq_some hdistinct, find_eq_some hdistinct']
  simp only [h.mem_iff]

/-- **The order does not matter** for what a list stands for. -/
theorem describe_perm {xs ys : List (Subobject p)} (h : xs.Perm ys) (hdistinct : (types xs).Nodup) :
    describe xs = describe ys := by
  rw [describe, describe, find_perm h hdistinct]

theorem find_append (subobjects : List (Subobject p)) (subobject : Subobject p)
    (hnew : subobject.type ∉ types subobjects) :
    find (subobjects ++ [subobject]) =
      Function.update (find subobjects) subobject.type (some subobject.payload) := by
  funext t
  unfold find
  rw [List.find?_append]
  by_cases ht : t = subobject.type
  · subst ht
    have hnone : (subobjects.find? fun other => other.type = subobject.type) = none := by
      rw [List.find?_eq_none]
      intro other hother heq
      exact hnew (of_decide_eq_true heq ▸ List.mem_map_of_mem hother)
    rw [Function.update_self, hnone]
    simp
  · rw [Function.update_of_ne ht]
    have hlast : [subobject].find? (fun other => other.type = t) = none := by simp [Ne.symm ht]
    rw [hlast, Option.or_none]

theorem hasBytecode_default (p : Platform) : hasBytecode p (defaultPayload p .cs) = false := by
  cases p <;> decide

theorem rtvFormats_default (p : Platform) :
    rtvFormats (defaultPayload p .renderTargetFormats)
      (List.replicate simultaneousRenderTargetCount 0) =
      List.replicate simultaneousRenderTargetCount 0 := by
  cases p <;> decide

theorem numRenderTargets_default (p : Platform) :
    readU32 (defaultPayload p .renderTargetFormats) 32 = 0 := by
  cases p <;> decide

/-- A payload of a type that is new goes where the description has it. -/
theorem applyPayload_describeFound {find : SubobjectType → Option (List Byte)} {t : SubobjectType}
    {payload : List Byte} (hnew : find t = none)
    (hdepthStencil : t = .depthStencil1 → find .depthStencil = none)
    (hsupported : (applyPayload p (describeFound p find) payload t).2 = none) :
    (applyPayload p (describeFound p find) payload t).1 =
      describeFound p (Function.update find t (some payload)) := by
  have hdefault : payloadOf p find t = defaultPayload p t := by rw [payloadOf, hnew]; rfl
  cases t
  case cs =>
    have hnone : (describeFound p find).hasComputeShader = false := by
      rw [describeFound, hdefault, hasBytecode_default]
    simp only [applyPayload, hnone, Bool.false_or]
    rfl
  case depthStencil1 =>
    have hfirst := hdepthStencil rfl
    have hstate : depthStencilOf (Function.update find .depthStencil1 (some payload)) =
        depthStencilDesc payload := by
      unfold depthStencilOf
      rw [Function.update_self, Function.update_of_ne (by decide), hfirst]
    simp only [applyPayload, describeFound, hstate]
    rfl
  case renderTargetFormats =>
    have hcount : ¬simultaneousRenderTargetCount < (readU32 payload 32).toNat := by
      intro hmany
      rw [applyPayload, if_pos hmany] at hsupported
      cases hsupported
    have hformats : (describeFound p find).graphics.rtvFormats =
        List.replicate simultaneousRenderTargetCount 0 := by
      simp only [describeFound, hdefault, rtvFormats_default]
    rw [applyPayload, if_neg hcount, hformats]
    rfl
  all_goals rfl

/-- Applying the payloads one by one describes what the subobjects say. -/
theorem applyAll_eq {subobjects : List (Subobject p)} (hdistinct : (types subobjects).Nodup)
    (hsupported : ∀ subobject ∈ subobjects, subobject.Supported)
    (hdepthStencil : ¬(.depthStencil ∈ types subobjects ∧ .depthStencil1 ∈ types subobjects)) :
    applyAll (initialDesc p) subobjects = describe subobjects := by
  induction subobjects using List.reverseRecOn with
  | nil =>
    have hempty : describeFound p (fun _ => none) = initialDesc p := by
      simp only [describeFound, payloadOf, Option.getD_none, rtvFormats_default,
        hasBytecode_default, numRenderTargets_default]
      rfl
    exact hempty.symm
  | append_singleton subobjects subobject ih =>
    have hmem : ∀ t, t ∈ types subobjects → t ∈ types (subobjects ++ [subobject]) := fun t ht => by
      rw [types, List.map_append]
      exact List.mem_append_left _ ht
    have hlast : subobject.type ∈ types (subobjects ++ [subobject]) := by
      rw [types, List.map_append]
      exact List.mem_append_right _ (List.mem_singleton_self _)
    have hsplit := hdistinct
    rw [types, List.map_append, List.nodup_append] at hsplit
    have hnew : subobject.type ∉ types subobjects := fun hold =>
      hsplit.2.2 _ hold _ (List.mem_singleton_self _) rfl
    have hnone : ∀ t, t ∉ types subobjects → find subobjects t = none := fun t ht => by
      rw [find, Option.map_eq_none_iff, List.find?_eq_none]
      intro other hother heq
      exact ht (of_decide_eq_true heq ▸ List.mem_map_of_mem hother)
    have hrest := ih hsplit.1 (fun other hother => hsupported other (List.mem_append_left _ hother))
      fun hboth => hdepthStencil ⟨hmem _ hboth.1, hmem _ hboth.2⟩
    have hsupp := hsupported subobject (List.mem_append_right _ (List.mem_singleton_self _))
    have happly : applyAll (initialDesc p) (subobjects ++ [subobject]) =
        (applyPayload p (applyAll (initialDesc p) subobjects) subobject.payload subobject.type).1 :=
      List.foldl_append
    rw [happly, hrest, describe, describe, find_append subobjects subobject hnew]
    refine applyPayload_describeFound (hnone _ hnew) (fun htype => hnone _ fun hfirst => ?_)
      ((applyPayload_result _ subobject).1.mpr hsupp)
    exact hdepthStencil ⟨hmem _ hfirst, htype ▸ hlast⟩

/-- The end accepts what does not mix the two pipelines. -/
theorem finish_ok_iff {s : ParseState p} {subobjects : List (Subobject p)}
    (h : s.desc = describe subobjects) :
    finish s = .ok ↔ Unmixed subobjects := by
  have hfinish : finish s = .ok ↔ ¬(s.desc.hasComputeShader && (hasBytecode p s.desc.graphics.vs ||
      hasBytecode p s.desc.graphics.ds || hasBytecode p s.desc.graphics.hs ||
      hasBytecode p s.desc.graphics.gs)) = true := by
    unfold finish
    split
    · next hmixed => exact ⟨nofun, fun hnot => absurd hmixed hnot⟩
    · next hnot => exact ⟨fun _ => hnot, fun _ => rfl⟩
  rw [hfinish, h, Unmixed]
  simp only [describe, describeFound, Bool.and_eq_true, Bool.or_eq_true, not_and, not_or,
    Bool.not_eq_true, List.forall_mem_cons, List.not_mem_nil, false_imp_iff, implies_true,
      and_true, and_assoc]

/-- **A list of valid subobjects** gives success and the description that it stands for. -/
theorem parse_laidOut {stream : Stream p} {subobjects : List (Subobject p)}
    (hvalid : Valid subobjects) (hstream : stream.Is subobjects) (hne : stream.bytes.length ≠ 0) :
    (parsePipelineStateStream stream).result = some .ok ∧
      (parsePipelineStateStream stream).desc = describe subobjects := by
  obtain ⟨last, hlaid, hlast⟩ := hstream
  obtain ⟨s, hparsed, rfl, hrun⟩ :=
    run_take subobjects {} [] (Parsed.initial stream) hlaid hvalid.distinct hvalid.supported
  have hdesc : s.desc = describe subobjects :=
    hparsed.desc.trans (applyAll_eq hvalid.distinct hvalid.supported hvalid.depthStencil)
  have hstep : parseStep stream s = some { s with result := some (finish s) } := by
    unfold parseStep
    rw [hparsed.going, if_neg (by decide), if_neg (Nat.not_lt.mpr hlast)]
  rw [parsePipelineStateStream, if_neg hne, hrun, run_of_some _ _ hstep, run_of_none _ _ rfl]
  exact ⟨congrArg some ((finish_ok_iff hdesc).mpr hvalid.unmixed), hdesc⟩

/-! ## Results -/

/-- **The stream is parsed in bounds and means its subobjects.** -/
structure Parses (stream : Stream p) : Prop where
  inBounds : ∀ read ∈ (parsePipelineStateStream stream).reads, read.1 + read.2 ≤ stream.bytes.length
  returns : (parsePipelineStateStream stream).result.isSome = true
  /-- What is duplicated, unknown or truncated is not accepted. -/
  accepted : (parsePipelineStateStream stream).result = some .ok →
    ∃ subobjects : List (Subobject p), (types subobjects).Nodup ∧ stream.Is subobjects
  means : ∀ subobjects, Valid subobjects → stream.Is subobjects →
    (parsePipelineStateStream stream).result = some .ok ∧
      (parsePipelineStateStream stream).desc = describe subobjects
  order : ∀ subobjects subobjects' : List (Subobject p), ∀ other : Stream p, Valid subobjects →
    stream.Is subobjects → subobjects.Perm subobjects' → other.Is subobjects' →
      (parsePipelineStateStream other).desc = (parsePipelineStateStream stream).desc

theorem run_inv {stream : Stream p} (hno : ¬stream.Overrun) :
    Inv stream (run (lower_wf _) (parseStep_lower stream) {}) :=
  (run_spec (lower_wf _) (parseStep_lower stream) (Inv.step hno) (Inv.initial stream)).1

/-- The parser always returns. -/
theorem returns_always (stream : Stream p) :
    (parsePipelineStateStream stream).result.isSome = true := by
  unfold parsePipelineStateStream
  split
  · rfl
  · exact result_of_parseStep (run_spec (lower_wf _) (parseStep_lower stream) (P := fun _ => True)
      (fun _ _ _ _ => trivial) trivial).2

theorem Valid.perm {xs ys : List (Subobject p)} (h : xs.Perm ys) (hvalid : Valid xs) :
    Valid ys where
  distinct := (h.map _).nodup_iff.mp hvalid.distinct
  supported subobject hmem := hvalid.supported subobject (h.mem_iff.mpr hmem)
  depthStencil hboth := hvalid.depthStencil ⟨(h.map _).mem_iff.mpr hboth.1,
  (h.map _).mem_iff.mpr hboth.2⟩
  unmixed := by
    have hunmixed := hvalid.unmixed
    rw [Unmixed, find_perm h hvalid.distinct] at hunmixed
    exact hunmixed

/-- A stream of the same subobjects is not empty either. -/
theorem length_ne_zero {stream : Stream p} {subobjects : List (Subobject p)}
    (h : stream.Is subobjects) :
    subobjects ≠ [] → stream.bytes.length ≠ 0 := by
  obtain ⟨last, hlaid, -⟩ := h
  cases subobjects with
  | nil => exact fun hne => absurd rfl hne
  | cons subobject subobjects =>
    intro _ hzero
    have hwithin := hlaid.1.within
    have hsize := payloadSize_bounds p subobject.type
    omega

theorem ne_nil_of_length {stream : Stream p} {subobjects : List (Subobject p)}
    (h : stream.Is subobjects) (hne : stream.bytes.length ≠ 0) : subobjects ≠ [] := by
  obtain ⟨last, hlaid, hlast⟩ := h
  rintro rfl
  cases hlaid
  exact hne (Nat.le_zero.mp hlast)

theorem reads_parseStep {stream : Stream p} {s s' : ParseState p}
    (h : parseStep stream s = some s') :
    s.reads ⊆ s'.reads := by
  unfold parseStep at h
  split at h
  · cases h
  · split at h
    · cases h
      unfold parseSubobject
      split
      · exact List.Subset.refl _
      · dsimp only
        split
        · exact List.subset_append_left _ _
        · split
          · exact List.subset_append_left _ _
          · split
            · exact List.subset_append_left _ _
            · split
              · exact List.subset_append_left _ _
              · exact List.Subset.trans (List.subset_append_left _ _) (List.subset_append_left _ _)
    · cases h
      exact List.Subset.refl _

/-- The reads of a run contain those of the states before. -/
theorem reads_subset_run (stream : Stream p) (s : ParseState p) :
    s.reads ⊆ (run (lower_wf _) (parseStep_lower stream) s).reads :=
  (run_spec (lower_wf _) (parseStep_lower stream) (P := fun s' => s.reads ⊆ s'.reads)
    (fun _ _ hreads hstep => List.Subset.trans hreads (reads_parseStep hstep))
    (List.Subset.refl _)).1

/-- **Where the last payload would begin past the end**, it is read there. -/
theorem Stream.Overrun.outside {stream : Stream p} (h : stream.Overrun) :
    ∃ read ∈ (parsePipelineStateStream stream).reads, stream.bytes.length < read.1 + read.2 := by
  obtain ⟨subobjects, offset, t, hdistinct, hsupported, hlaid, htype, ht, hnew, hpast⟩ := h
  obtain ⟨s, hparsed, rfl, hrun⟩ :=
    run_take subobjects {} [] (Parsed.initial stream) hlaid hdistinct hsupported
  have hsmall := LaidOut.small hparsed.distinct hparsed.laidOut
  have hstep : parseStep stream s =
      some (takePayload stream s.readType (payloadOffset p s.offset t) t) := by
    unfold parseStep
    rw [hparsed.going, if_neg (by decide), if_pos (by omega),
      parseSubobject_known stream htype hsmall ht, if_neg fun hboth =>
        Nat.not_lt.mpr hboth.1 hpast, if_neg (hparsed.seen ▸ hnew)]
  rw [parsePipelineStateStream, if_neg (by omega), hrun, run_of_some _ _ hstep]
  obtain ⟨inner, hinner, hpos⟩ :=
    (payloadReads_le p ((stream.bytes.drop (payloadOffset p s.offset t)).take (t.payloadSize p))
      t).2
  refine ⟨(payloadOffset p s.offset t + inner.1, inner.2), reads_subset_run stream _ ?_, ?_⟩
  · exact List.mem_append_right _ (List.mem_map.mpr ⟨inner, hinner, rfl⟩)
  · show stream.bytes.length < payloadOffset p s.offset t + inner.1 + inner.2
    omega

/-- **Exactly the streams** that are not empty and do not end behind a type whose payload is aligned
past the end are parsed in bounds and mean their subobjects. -/
theorem parses_iff (stream : Stream p) :
    Parses stream ↔ stream.bytes.length ≠ 0 ∧ ¬stream.Overrun := by
  constructor
  · refine fun h => ⟨fun hzero => ?_, fun hover => ?_⟩
    · have hempty : stream.Is ([] : List (Subobject p)) := ⟨0, rfl, Nat.le_of_eq hzero⟩
      have hvalid : Valid ([] : List (Subobject p)) :=
        ⟨List.nodup_nil, nofun, nofun, fun hcs =>
          absurd (hcs.symm.trans (hasBytecode_default p)) nofun⟩
      have hok := (h.means [] hvalid hempty).1
      rw [parsePipelineStateStream, if_pos hzero] at hok
      cases hok
    · obtain ⟨read, hread, hout⟩ := hover.outside
      exact Nat.not_le.mpr hout (h.inBounds read hread)
  · rintro ⟨hne, hno⟩
    have hinv := run_inv hno
    have hparse : parsePipelineStateStream stream =
        run (lower_wf _) (parseStep_lower stream) {} := if_neg hne
    refine ⟨hparse ▸ hinv.inBounds, returns_always stream, hparse ▸ hinv.accepted,
      fun subobjects hvalid hstream => parse_laidOut hvalid hstream hne,
      fun subobjects subobjects' other hvalid hstream hperm hother => ?_⟩
    have hother_ne := length_ne_zero hother fun hnil =>
      ne_nil_of_length hstream hne (hperm.trans (hnil ▸ .refl _)).eq_nil
    rw [(parse_laidOut hvalid hstream hne).2,
      (parse_laidOut (hvalid.perm hperm) hother hother_ne).2, describe_perm hperm hvalid.distinct]

/-- The type of a root signature, and nothing after it. -/
def typeOnly : Stream .bits64 where
  bytes := writeU32 0
  fits := by decide

/-- Eight bytes are read behind the four of the stream, and it is accepted. -/
theorem typeOnly_outside : ¬Parses typeOnly := by
  intro h
  have hover : typeOnly.Overrun :=
    ⟨[], 0, .rootSignature, List.nodup_nil, nofun, rfl, by decide, by decide, List.not_mem_nil, by
      show 4 < align 4 8
      rw [align_eight]
      decide⟩
  obtain ⟨read, hread, hout⟩ := hover.outside
  exact Nat.not_le.mpr hout (h.inBounds read hread)

end PipelineStream

end Dxmt
