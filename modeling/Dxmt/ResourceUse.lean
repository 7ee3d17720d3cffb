import Mathlib.Algebra.Group.Nat.Defs
import Mathlib.Data.List.Basic
import Mathlib.Data.List.Forall2
import Mathlib.Logic.Function.Basic

/-!
# Which resources a shader uses: `PropagateTranslationResourceUses`

A handle operation names a resource: `CreateHandle` by class and range id, `CreateHandleFromBinding`
by class, space and lower bound, `AnnotateHandle` by the handle that it passes on. The parser keeps
what a handle names in a map from value names, writes the number of the resource into the operations
that use the handle, and marks every resource with that number.

The number is not always that of the resource. `ParseDxilOperation` takes the register index of
`CreateHandleFromBinding` for a range id when it is a constant,
`ApplyOperationToTranslationResource` compares numbers without the class, and a few opcodes have no
typed operands, so that their handle is not seen.

Results: `has_translationResources` says what is marked, for every list of operations, and
`attribution_exact_iff` when every operation marks what it accesses: where no name is taken for a
value of another function, just when no number stands for another resource and no operation without
typed operands accesses a listed one. The opcodes that have no handle operand, or none that is read,
are one constructor; the fields of an operation that the attribution does not read are left out.
-/

namespace Dxmt

/-- The text of a value, as LLVM prints it. -/
abbrev ValueName := List Char

/-- What `ParseLlvmOperand` sees of a constant: an integer, or the integers of a structure. -/
inductive LlvmConstant where
  | none
  | integer (value : Nat)
  | aggregate (values : List Nat)
deriving DecidableEq

/-- An operand: its text, and the constant that it is where it is one. -/
structure LlvmOperandInfo where
  text : ValueName
  constant : LlvmConstant := .none
deriving DecidableEq

/-- The opcodes that take or make a handle; `sampleIndex` is classified with them by its name. -/
inductive DxilOpcode where
  | createHandle | createHandleForLib | createHandleFromBinding | createHandleFromHeap
  | annotateHandle
  | cBufferLoad | cBufferLoadLegacy | textureLoad | bufferLoad | rawBufferLoad
  | rawBufferVectorLoad
  | textureStore | textureStoreSample | bufferStore | rawBufferStore | rawBufferVectorStore
  | sample | sampleBias | sampleLevel | sampleGrad
  | sampleCmp | sampleCmpLevelZero | sampleCmpLevel | sampleCmpGrad | sampleCmpBias
  | textureGather | textureGatherCmp | textureGatherRaw
  | writeSamplerFeedback | writeSamplerFeedbackBias | writeSamplerFeedbackLevel
  | writeSamplerFeedbackGrad
  | bufferUpdateCounter | atomicBinOp | atomicCompareExchange
  | getDimensions | calculateLOD | sampleIndex
  | other
deriving DecidableEq

/-- A call of a `dx.op` function. Operand 0 is the opcode. -/
structure LlvmDxilInstruction where
  functionName : ValueName
  resultName : ValueName := []
  resultText : ValueName := []
  opcode : DxilOpcode
  operands : List LlvmOperandInfo := []

/-- `DxilSemanticOperationKind`. -/
inductive DxilSemanticOperationKind where
  | unknown
  | resourceHandle
  | resourceRead
  | resourceWrite
  | resourceSample
  | resourceQuery
deriving DecidableEq

/-- `DxilTranslationResourceClass`. -/
inductive DxilTranslationResourceClass where
  | unknown
  | srv
  | uav
  | cbv
  | sampler
deriving DecidableEq

/-- The binding of `CreateHandleFromBinding`. -/
structure DxilResourceBinding where
  space : Nat
  lowerBound : Nat
deriving DecidableEq

/-- `DxilTypedOperationInfo`; a field with its `has_` flag is an `Option`. -/
structure DxilTypedOperationInfo where
  operands : List LlvmOperandInfo := []
  resourceClass : Option Nat := none
  resourceRangeId : Option Nat := none
  resourceBinding : Option DxilResourceBinding := none

/-- An operation, as the resource marks read it. -/
structure DxilTranslationOperationInfo where
  resultName : ValueName
  resultText : ValueName
  opcode : DxilOpcode
  semanticKind : DxilSemanticOperationKind
  resourceId : Option Nat
  typed : DxilTypedOperationInfo

/-! ## Parsing an operation -/

/-- `IntegerOperandUInt32`: the operand as a constant of 32 bits. -/
def integerOperandUInt32 (operands : List LlvmOperandInfo) (index : Nat) : Option Nat :=
  match operands[index]?.map LlvmOperandInfo.constant with
  | some (.integer value) => if value < 2 ^ 32 then some value else none
  | _ => none

/-- The same for an element of an aggregate operand. -/
def aggregateIntegerOperandUInt32 (operands : List LlvmOperandInfo)
    (operandIndex elementIndex : Nat) : Option Nat :=
  match operands[operandIndex]?.map LlvmOperandInfo.constant with
  | some (.aggregate values) => values[elementIndex]?.filter (· < 2 ^ 32)
  | _ => none

/-- The operands from the second one on, as many as there are names. -/
def appendTypedOperands (operands : List LlvmOperandInfo) (names : Nat) : List LlvmOperandInfo :=
  (operands.drop 1).take names

/-- `ParseDxilTypedOperation`: the operands of the operation and the binding that they give. -/
def parseDxilTypedOperation (opcode : DxilOpcode) (operands : List LlvmOperandInfo) :
    DxilTypedOperationInfo :=
  match opcode with
  | .createHandle =>
    { operands := appendTypedOperands operands 4
      resourceClass := integerOperandUInt32 operands 1
      resourceRangeId := integerOperandUInt32 operands 2 }
  | .createHandleFromBinding =>
    match aggregateIntegerOperandUInt32 operands 1 0 with
    | none => { operands := appendTypedOperands operands 3 }
    | some lowerBound =>
      { operands := appendTypedOperands operands 3
        resourceClass := aggregateIntegerOperandUInt32 operands 1 3
        resourceBinding :=
          some ⟨(aggregateIntegerOperandUInt32 operands 1 2).getD 0, lowerBound⟩ }
  | .createHandleFromHeap =>
    { operands := appendTypedOperands operands 3
      resourceClass := integerOperandUInt32 operands 1 }
  | .annotateHandle | .cBufferLoad | .cBufferLoadLegacy | .bufferUpdateCounter =>
    { operands := appendTypedOperands operands 2 }
  | .textureLoad | .bufferStore => { operands := appendTypedOperands operands 8 }
  | .textureStore | .rawBufferStore => { operands := appendTypedOperands operands 9 }
  | .bufferLoad => { operands := appendTypedOperands operands 3 }
  | .rawBufferLoad => { operands := appendTypedOperands operands 5 }
  -- the two names of a sample or gather, and all operands after them
  | .sample | .sampleBias | .sampleLevel | .sampleGrad | .sampleCmp | .sampleCmpLevelZero
  | .sampleCmpLevel | .sampleCmpGrad | .sampleCmpBias | .textureGather | .textureGatherCmp
  | .writeSamplerFeedback | .writeSamplerFeedbackBias | .writeSamplerFeedbackLevel
  | .writeSamplerFeedbackGrad | .calculateLOD => { operands := operands.drop 1 }
  | .atomicBinOp | .atomicCompareExchange => { operands := appendTypedOperands operands 6 }
  | .sampleIndex => { operands := appendTypedOperands operands 1 }
  | .createHandleForLib | .rawBufferVectorLoad | .rawBufferVectorStore | .textureStoreSample
  | .textureGatherRaw | .getDimensions | .other => {}

/-- `ClassifyDxilOperation`, which looks for `Sample` and `Gather` in the name before `Store`. -/
def classifyDxilOperation : DxilOpcode → DxilSemanticOperationKind
  | .createHandle | .createHandleForLib | .createHandleFromBinding | .createHandleFromHeap
  | .annotateHandle => .resourceHandle
  | .sample | .sampleBias | .sampleLevel | .sampleGrad | .sampleCmp | .sampleCmpLevelZero
  | .sampleCmpLevel | .sampleCmpGrad | .sampleCmpBias | .textureGather | .textureGatherCmp
  | .textureGatherRaw | .writeSamplerFeedback | .writeSamplerFeedbackBias
  | .writeSamplerFeedbackLevel | .writeSamplerFeedbackGrad | .textureStoreSample | .sampleIndex =>
    .resourceSample
  | .textureStore | .bufferStore | .rawBufferStore | .rawBufferVectorStore | .atomicBinOp
  | .atomicCompareExchange | .bufferUpdateCounter => .resourceWrite
  | .cBufferLoad | .cBufferLoadLegacy | .textureLoad | .bufferLoad | .rawBufferLoad
  | .rawBufferVectorLoad => .resourceRead
  | .getDimensions | .calculateLOD => .resourceQuery
  | .other => .unknown

/-- `ParseDxilOperation`, then `BuildTranslationOperation`. -/
def parseDxilOperation (instruction : LlvmDxilInstruction) : DxilTranslationOperationInfo :=
  let typed := parseDxilTypedOperation instruction.opcode instruction.operands
  { resultName := instruction.resultName
    resultText := instruction.resultText
    opcode := instruction.opcode
    semanticKind := classifyDxilOperation instruction.opcode
    resourceId :=
      if classifyDxilOperation instruction.opcode = .resourceHandle then
        typed.resourceRangeId
          <|> integerOperandUInt32 instruction.operands 2
          <|> integerOperandUInt32 instruction.operands 1
      else none
    typed := typed }

/-! ## The resources -/

/-- The class of a DXIL resource class number. -/
def translationResourceClassFromValue : Nat → DxilTranslationResourceClass
  | 0 => .srv
  | 1 => .uav
  | 2 => .cbv
  | 3 => .sampler
  | _ => .unknown

/-- The classes of the metadata are numbered as those of the handles. -/
def translationResourceClassFromMetadata : Nat → DxilTranslationResourceClass :=
  translationResourceClassFromValue

/-- The class of an `RDEF` input type. -/
def translationResourceClassFromResourceDefType : Nat → DxilTranslationResourceClass
  | 0 => .cbv
  | 3 => .sampler
  | 4 | 6 | 8 | 9 | 10 | 11 | 13 => .uav
  | 1 | 2 | 5 | 7 | 12 => .srv
  | _ => .unknown

/-- A resource of the reflection, with where it comes from. -/
structure ShaderReflectionResourceInfo where
  resourceClass : Nat := 0
  resourceType : Nat := 0
  id : Nat
  space : Nat := 0
  lowerBound : Nat := 0
  fromRuntimeData : Bool := false
  fromMetadata : Bool := true

/-- `ClassifyTranslationResource`: the number is read as its origin has it. -/
def classifyTranslationResource (resource : ShaderReflectionResourceInfo) :
    DxilTranslationResourceClass :=
  if resource.fromMetadata then translationResourceClassFromMetadata resource.resourceClass
  else if resource.fromRuntimeData = true ∧
      translationResourceClassFromValue resource.resourceClass ≠ .unknown then
    translationResourceClassFromValue resource.resourceClass
  else translationResourceClassFromResourceDefType resource.resourceType

/-- A resource with the marks of its uses. -/
structure DxilTranslationResourceInfo where
  resourceClass : DxilTranslationResourceClass
  id : Nat
  space : Nat
  lowerBound : Nat
  referencedByHandle : Bool := false
  read : Bool := false
  written : Bool := false
  sampled : Bool := false
  compared : Bool := false
  queried : Bool := false
  counter : Bool := false

/-- `BuildTranslationResource`: a resource before any operation. -/
def buildTranslationResource (resource : ShaderReflectionResourceInfo) :
    DxilTranslationResourceInfo where
  resourceClass := classifyTranslationResource resource
  id := resource.id
  space := resource.space
  lowerBound := resource.lowerBound

/-! ## The use of a handle -/

/-- What is known of the resource behind a handle. -/
structure DxilResourceUseHandle where
  resourceClass : DxilTranslationResourceClass := .unknown
  resourceId : Option Nat := none
  valid : Bool := false

/-- Without the percent sign. -/
def normalizeLlvmValueName : ValueName → ValueName
  | '%' :: name => name
  | name => name

/-- The name of the handle that the operation uses. -/
def dxilHandleOperandName (operation : DxilTranslationOperationInfo) : ValueName :=
  match operation.typed.operands with
  | [] => []
  | operand :: _ => normalizeLlvmValueName operand.text

/-- The DXIL number of a class. -/
def dxilResourceClassToValue : DxilTranslationResourceClass → Option Nat
  | .srv => some 0
  | .uav => some 1
  | .cbv => some 2
  | .sampler => some 3
  | .unknown => none

/-- The class of the operation, when it has one. -/
def operationResourceClass (operation : DxilTranslationOperationInfo) :
    DxilTranslationResourceClass :=
  match operation.typed.resourceClass with
  | some value => translationResourceClassFromValue value
  | none => .unknown

/-- The first resource with the class, the space and the lower bound. -/
def resourceOfBinding (resources : List DxilTranslationResourceInfo)
    (resourceClass : DxilTranslationResourceClass) (binding : DxilResourceBinding) :
    Option DxilTranslationResourceInfo :=
  resources.find? fun resource =>
    decide (resource.resourceClass = resourceClass ∧ resource.space = binding.space ∧
      resource.lowerBound = binding.lowerBound)

/-- `ResourceUseHandleFromOperation`: by the operation's own number, then by its binding, then by
the handle that it uses. -/
def resourceUseHandleFromOperation (operation : DxilTranslationOperationInfo)
    (resources : List DxilTranslationResourceInfo)
    (handles : ValueName → Option DxilResourceUseHandle) : DxilResourceUseHandle :=
  let resourceClass := operationResourceClass operation
  match operation.resourceId with
  | some id =>
    { resourceClass := resourceClass
      resourceId := some id
      valid := decide (resourceClass ≠ .unknown) }
  | none =>
    match operation.typed.resourceBinding with
    | some binding =>
      if operation.semanticKind = .resourceHandle then
        { resourceClass := resourceClass
          resourceId := (resourceOfBinding resources resourceClass binding).map (·.id)
          valid := decide (resourceClass ≠ .unknown) }
      else lookup
    | none => lookup
where
  lookup : DxilResourceUseHandle :=
    if dxilHandleOperandName operation = [] then {}
    else (handles (dxilHandleOperandName operation)).getD {}

/-- `handles[NormalizeLlvmValueName(name)] = handle`, when the name is not empty. -/
def bindName {α : Type} (names : ValueName → Option α) (name : ValueName) (value : α) :
    ValueName → Option α :=
  if name = [] then names else Function.update names (normalizeLlvmValueName name) (some value)

/-- What a handle operation adds to the map. -/
def bindHandle (operation : DxilTranslationOperationInfo)
    (resources : List DxilTranslationResourceInfo)
    (handles : ValueName → Option DxilResourceUseHandle) :
    ValueName → Option DxilResourceUseHandle :=
  let handle := resourceUseHandleFromOperation operation resources handles
  let handle := { handle with resourceId := operation.resourceId <|> handle.resourceId }
  let handle :=
    { handle with valid := handle.valid || operation.typed.resourceBinding.isSome }
  if handle.valid then
    bindName (bindName handles operation.resultName handle) operation.resultText handle
  else handles

/-- What the handle of an operation leaves in it. -/
def useHandle (operation : DxilTranslationOperationInfo) (handle : DxilResourceUseHandle) :
    DxilTranslationOperationInfo :=
  if handle.valid = false then operation
  else
    { operation with
      resourceId := handle.resourceId <|> operation.resourceId
      typed := { operation.typed with
        resourceClass := operation.typed.resourceClass <|>
          dxilResourceClassToValue handle.resourceClass } }

/-- `PropagateTranslationResourceUses`; the map is empty at the start. -/
def propagateTranslationResourceUses (resources : List DxilTranslationResourceInfo)
    (handles : ValueName → Option DxilResourceUseHandle) :
    List DxilTranslationOperationInfo → List DxilTranslationOperationInfo
  | [] => []
  | operation :: operations =>
    if operation.semanticKind = .resourceHandle then
      operation ::
        propagateTranslationResourceUses resources (bindHandle operation resources handles)
          operations
    else
      useHandle operation (resourceUseHandleFromOperation operation resources handles) ::
        propagateTranslationResourceUses resources handles operations

/-- The comparison samples. -/
def isComparisonSampleOpcode : DxilOpcode → Bool
  | .sampleCmp | .sampleCmpLevelZero | .sampleCmpLevel | .sampleCmpGrad | .sampleCmpBias
  | .textureGatherCmp => true
  | _ => false

/-- The number of the operation is that of the resource, whatever their classes. -/
def idMatches (resource : DxilTranslationResourceInfo) (operation : DxilTranslationOperationInfo) :
    Bool :=
  decide (operation.resourceId = some resource.id)

/-- The operation's binding lies in the resource's range. -/
def bindingMatches (resource : DxilTranslationResourceInfo)
    (operation : DxilTranslationOperationInfo) : Bool :=
  match operation.typed.resourceBinding with
  | none => false
  | some binding =>
    (operation.typed.resourceClass.isNone ||
        decide (operationResourceClass operation = resource.resourceClass)) &&
      decide (binding.space = resource.space) && decide (binding.lowerBound = resource.lowerBound)

/-- `ApplyOperationToTranslationResource`: marks the resource by the operation's kind. -/
def applyOperationToTranslationResource (resource : DxilTranslationResourceInfo)
    (operation : DxilTranslationOperationInfo) : DxilTranslationResourceInfo :=
  if (idMatches resource operation || bindingMatches resource operation) = false then resource
  else
    match operation.semanticKind with
    | .resourceHandle => { resource with referencedByHandle := true }
    | .resourceRead => { resource with read := true }
    | .resourceWrite =>
      if operation.opcode = .bufferUpdateCounter then
        { resource with written := true, read := true, counter := true }
      else { resource with written := true }
    | .resourceSample =>
      { resource with
        sampled := true
        read := true
        compared := resource.compared || isComparisonSampleOpcode operation.opcode }
    | .resourceQuery => { resource with queried := true }
    | .unknown => resource

/-- The resources of the shader, with the uses that its operations make of them. -/
def translationResources (resources : List ShaderReflectionResourceInfo)
    (instructions : List LlvmDxilInstruction) : List DxilTranslationResourceInfo :=
  let resources := resources.map buildTranslationResource
  let operations := propagateTranslationResourceUses resources (fun _ => none)
    (instructions.map parseDxilOperation)
  resources.map fun resource => operations.foldl applyOperationToTranslationResource resource

/-! ## What the operations access -/

/-- The marks of a resource that say how it is accessed. -/
inductive AccessMark where
  | read
  | written
  | sampled
  | counter
deriving DecidableEq

/-- The resource carries the mark. -/
def DxilTranslationResourceInfo.has (resource : DxilTranslationResourceInfo) : AccessMark → Bool
  | .read => resource.read
  | .written => resource.written
  | .sampled => resource.sampled
  | .counter => resource.counter

namespace DxilOpcode

/-- The opcodes that read a resource. -/
def loads : DxilOpcode → Bool
  | cBufferLoad | cBufferLoadLegacy | textureLoad | bufferLoad | rawBufferLoad
  | rawBufferVectorLoad => true
  | _ => false

/-- The opcodes that write a resource. -/
def stores : DxilOpcode → Bool
  | textureStore | textureStoreSample | bufferStore | rawBufferStore | rawBufferVectorStore
  | atomicBinOp | atomicCompareExchange => true
  | _ => false

/-- The opcodes that sample. -/
def samples : DxilOpcode → Bool
  | sample | sampleBias | sampleLevel | sampleGrad | sampleCmp | sampleCmpLevelZero
  | sampleCmpLevel | sampleCmpGrad | sampleCmpBias | textureGather | textureGatherCmp
  | textureGatherRaw | writeSamplerFeedback | writeSamplerFeedbackBias | writeSamplerFeedbackLevel
  | writeSamplerFeedbackGrad => true
  | _ => false

/-- What the operation does with the resource of its first handle. A sample reads, an update of the
counter reads and writes. -/
def accesses (opcode : DxilOpcode) : AccessMark → Bool
  | .read => opcode.loads || opcode.samples || decide (opcode = bufferUpdateCounter)
  | .written => opcode.stores || decide (opcode = bufferUpdateCounter)
  | .sampled => opcode.samples
  | .counter => decide (opcode = bufferUpdateCounter)

/-- The operations with a handle that get no typed operands. -/
def unattributed : DxilOpcode → Bool
  | textureStoreSample | textureGatherRaw | rawBufferVectorLoad | rawBufferVectorStore => true
  | _ => false

/-- The other operations that access something. -/
def attributed (opcode : DxilOpcode) : Bool :=
  (opcode.loads || opcode.stores || opcode.samples || decide (opcode = bufferUpdateCounter)) &&
    !opcode.unattributed

/-- The marks that the classification gives. -/
def marks (opcode : DxilOpcode) : AccessMark → Bool
  | .read =>
    decide (classifyDxilOperation opcode = .resourceRead) ||
      decide (classifyDxilOperation opcode = .resourceSample) ||
      decide (opcode = bufferUpdateCounter)
  | .written => decide (classifyDxilOperation opcode = .resourceWrite)
  | .sampled => decide (classifyDxilOperation opcode = .resourceSample)
  | .counter => decide (opcode = bufferUpdateCounter)

theorem marks_attributed {opcode : DxilOpcode} (h : opcode.attributed = true) (mark : AccessMark) :
    opcode.marks mark = opcode.accesses mark := by
  cases opcode <;> first | (cases mark <;> rfl) | exact absurd h (by decide)

/-- Every operation with a handle that the marks are about accesses something. -/
theorem exists_accesses {opcode : DxilOpcode}
    (h : opcode.attributed = true ∨ opcode.unattributed = true) :
    ∃ mark, opcode.accesses mark = true := by
  cases opcode <;>
    first
    | exact ⟨.read, rfl⟩
    | exact ⟨.written, rfl⟩
    | exact absurd h (by decide)

theorem not_unattributed {opcode : DxilOpcode} (h : opcode.attributed = true) :
    opcode.unattributed = false := by
  unfold attributed at h
  rw [Bool.and_eq_true, Bool.not_eq_true'] at h
  exact h.2

theorem unattributed_of_accesses {opcode : DxilOpcode} {mark : AccessMark}
    (hattributed : opcode.attributed = false) (h : opcode.accesses mark = true) :
    opcode.unattributed = true := by
  cases opcode <;>
    first
    | rfl
    | exact absurd hattributed (by decide)
    | (cases mark <;> exact absurd h (by decide))

end DxilOpcode

/-- What a creation names. The register index is there when it is a constant. -/
inductive HandleCreation where
  | range (resourceClass : DxilTranslationResourceClass) (id : Nat)
  | binding (resourceClass : DxilTranslationResourceClass) (space lowerBound : Nat)
      (index : Option Nat)
deriving DecidableEq

namespace HandleCreation

/-- The creation names this very resource. -/
def Names (creation : HandleCreation) (resource : DxilTranslationResourceInfo) : Prop :=
  match creation with
  | range resourceClass id => resource.resourceClass = resourceClass ∧ resource.id = id
  | binding resourceClass space lowerBound _ =>
    resource.resourceClass = resourceClass ∧ resource.space = space ∧
      resource.lowerBound = lowerBound

instance (creation : HandleCreation) (resource : DxilTranslationResourceInfo) :
    Decidable (creation.Names resource) := by
  unfold Names
  cases creation <;> infer_instance

/-- The number that the handle carries. -/
def number (resources : List DxilTranslationResourceInfo) : HandleCreation → Option Nat
  | range _ id => some id
  | binding _ _ _ (some index) => some index
  | binding resourceClass space lowerBound none =>
    (resourceOfBinding resources resourceClass ⟨space, lowerBound⟩).map (·.id)

end HandleCreation

namespace LlvmDxilInstruction

/-- The instruction makes a handle. -/
def isHandle (instruction : LlvmDxilInstruction) : Prop :=
  classifyDxilOperation instruction.opcode = .resourceHandle

instance (instruction : LlvmDxilInstruction) : Decidable instruction.isHandle :=
  inferInstanceAs (Decidable (_ = _))

/-- The class of a constant operand. -/
def classOfValue (value : Nat) : Option DxilTranslationResourceClass :=
  if translationResourceClassFromValue value = .unknown then none
  else some (translationResourceClassFromValue value)

/-- The creation, when its class and its id or binding are constants. -/
def creation? (instruction : LlvmDxilInstruction) : Option HandleCreation :=
  match instruction.opcode with
  | .createHandle => do
    let value ← integerOperandUInt32 instruction.operands 1
    let resourceClass ← classOfValue value
    let id ← integerOperandUInt32 instruction.operands 2
    return .range resourceClass id
  | .createHandleFromBinding => do
    let lowerBound ← aggregateIntegerOperandUInt32 instruction.operands 1 0
    let space ← aggregateIntegerOperandUInt32 instruction.operands 1 2
    let value ← aggregateIntegerOperandUInt32 instruction.operands 1 3
    let resourceClass ← classOfValue value
    return .binding resourceClass space lowerBound (integerOperandUInt32 instruction.operands 2)
  | _ => none

/-- The name of a result that both of its names are turned into. -/
def resultKey (instruction : LlvmDxilInstruction) : ValueName :=
  normalizeLlvmValueName instruction.resultText

/-- The result has a name as LLVM prints it, and no other. -/
def HasNames (instruction : LlvmDxilInstruction) : Prop :=
  instruction.resultKey ≠ [] ∧ (instruction.resultName = [] ∨
    normalizeLlvmValueName instruction.resultName = instruction.resultKey)

instance (instruction : LlvmDxilInstruction) : Decidable instruction.HasNames :=
  inferInstanceAs (Decidable (_ ∧ (_ ∨ _)))

/-- Handles are created from constants or passed on. A handle is no integer, and `SampleIndex` has
no operand but its opcode. -/
def Supported (instruction : LlvmDxilInstruction) : Prop :=
  (instruction.isHandle → instruction.HasNames ∧
    if instruction.opcode = .annotateHandle then
      integerOperandUInt32 instruction.operands 1 = none ∧
        integerOperandUInt32 instruction.operands 2 = none
    else instruction.creation?.isSome) ∧
  (instruction.opcode = .sampleIndex → instruction.operands.length ≤ 1)

instance (instruction : LlvmDxilInstruction) : Decidable instruction.Supported := by
  unfold Supported
  infer_instance

/-- The first handle operand. -/
def handleText (instruction : LlvmDxilInstruction) : ValueName :=
  ((instruction.operands[1]?).map (·.text)).getD []

/-- The handle operand is seen: the opcode has typed operands. -/
def HasTypedHandle (instruction : LlvmDxilInstruction) : Prop :=
  dxilHandleOperandName (parseDxilOperation instruction) =
    normalizeLlvmValueName instruction.handleText

end LlvmDxilInstruction

/-- A use of a handle: the creation that its chain starts at, with the values of every function
apart, and the one that the names of all functions lead to. -/
structure HandleUse where
  instruction : LlvmDxilInstruction
  origin : Option HandleCreation
  found : Option HandleCreation

/-- What the names lead to. -/
def lookupName {α : Type} (names : ValueName → Option α)
    (operation : DxilTranslationOperationInfo) : Option α :=
  if dxilHandleOperandName operation = [] then none else names (dxilHandleOperandName operation)

/-- The handle that a handle operation makes, given those before it. -/
def scopeHandle (values : ValueName × ValueName → Option HandleCreation)
    (instruction : LlvmDxilInstruction) : ValueName × ValueName → Option HandleCreation :=
  Function.update values (instruction.functionName, instruction.resultText)
    (match instruction.creation? with
      | some creation => some creation
      | none => values (instruction.functionName, instruction.handleText))

/-- The names that a handle operation binds. -/
def nameHandle (names : ValueName → Option HandleCreation) (instruction : LlvmDxilInstruction) :
    ValueName → Option HandleCreation :=
  match instruction.creation? <|> lookupName names (parseDxilOperation instruction) with
  | none => names
  | some creation =>
    bindName (bindName names instruction.resultName creation) instruction.resultText creation

/-- The uses, given the values and the names that are bound before them. -/
def usesFrom (values : ValueName × ValueName → Option HandleCreation)
    (names : ValueName → Option HandleCreation) : List LlvmDxilInstruction → List HandleUse
  | [] => []
  | instruction :: instructions =>
    if instruction.isHandle then
      usesFrom (scopeHandle values instruction) (nameHandle names instruction) instructions
    else
      { instruction := instruction
        origin := values (instruction.functionName, instruction.handleText)
        found := lookupName names (parseDxilOperation instruction) } ::
        usesFrom values names instructions

/-- The uses of handles in the instructions. -/
def handleUses (instructions : List LlvmDxilInstruction) : List HandleUse :=
  usesFrom (fun _ => none) (fun _ => none) instructions

namespace HandleUse

/-- The use accesses this very resource. -/
def Accesses (use : HandleUse) (mark : AccessMark) (resource : DxilTranslationResourceInfo) :
    Prop :=
  use.instruction.opcode.accesses mark = true ∧
    ∃ creation, use.origin = some creation ∧ creation.Names resource

/-- The number that the use finds is that of the resource. -/
def Reaches (use : HandleUse) (resources : List DxilTranslationResourceInfo) (mark : AccessMark)
    (resource : DxilTranslationResourceInfo) : Prop :=
  use.instruction.opcode.marks mark = true ∧
    ∃ creation, use.found = some creation ∧ creation.number resources = some resource.id

instance (use : HandleUse) (mark : AccessMark) (resource : DxilTranslationResourceInfo) :
    Decidable (use.Accesses mark resource) :=
  decidable_of_iff (use.instruction.opcode.accesses mark = true ∧
    use.origin.any (fun creation => decide (creation.Names resource)) = true) <| by
      simp only [Option.any_eq_true, decide_eq_true_eq, HandleUse.Accesses]

end HandleUse

/-! ## The map of handles -/

variable {resources : List DxilTranslationResourceInfo} {resource : DxilTranslationResourceInfo}
  {operation : DxilTranslationOperationInfo} {instruction : LlvmDxilInstruction}
  {names : ValueName → Option HandleCreation} {mark : AccessMark}

/-- The entry of the map for a creation. -/
def HandleCreation.handle (resources : List DxilTranslationResourceInfo)
    (creation : HandleCreation) : DxilResourceUseHandle where
  resourceClass :=
    match creation with
    | .range resourceClass _ => resourceClass
    | .binding resourceClass _ _ _ => resourceClass
  resourceId := creation.number resources
  valid := true

/-- The map of handles for the names. -/
def handlesOf (resources : List DxilTranslationResourceInfo)
    (names : ValueName → Option HandleCreation) (name : ValueName) : Option DxilResourceUseHandle :=
  (names name).map (HandleCreation.handle resources)

theorem handlesOf_bindName (name : ValueName) (creation : HandleCreation) :
    handlesOf resources (bindName names name creation) =
      bindName (handlesOf resources names) name (creation.handle resources) := by
  unfold bindName
  split
  · rfl
  · funext key
    by_cases h : key = normalizeLlvmValueName name <;> simp [handlesOf, h]

theorem lookup_handlesOf :
    resourceUseHandleFromOperation.lookup operation (handlesOf resources names) =
      ((lookupName names operation).map (HandleCreation.handle resources)).getD {} := by
  unfold resourceUseHandleFromOperation.lookup lookupName
  split <;> rfl

open LlvmDxilInstruction

theorem classOfValue_eq_some {value : Nat} {resourceClass : DxilTranslationResourceClass}
    (h : classOfValue value = some resourceClass) :
    translationResourceClassFromValue value = resourceClass ∧ resourceClass ≠ .unknown := by
  unfold classOfValue at h
  split at h
  · cases h
  · next hne =>
    cases h
    exact ⟨rfl, hne⟩

/-- An operand with the integers of a structure is no integer. -/
theorem integerOperandUInt32_of_aggregate {operands : List LlvmOperandInfo}
    {operandIndex elementIndex value : Nat}
    (h : aggregateIntegerOperandUInt32 operands operandIndex elementIndex = some value) :
    integerOperandUInt32 operands operandIndex = none := by
  unfold aggregateIntegerOperandUInt32 at h
  unfold integerOperandUInt32
  split at h
  · next heq => rw [heq]
  · cases h

theorem creation?_createHandle {creation : HandleCreation}
    (hopcode : instruction.opcode = .createHandle) (h : instruction.creation? = some creation) :
    ∃ value resourceClass id, integerOperandUInt32 instruction.operands 1 = some value ∧
      translationResourceClassFromValue value = resourceClass ∧ resourceClass ≠ .unknown ∧
      integerOperandUInt32 instruction.operands 2 = some id ∧
      creation = .range resourceClass id := by
  unfold creation? at h
  rw [hopcode] at h
  simp only [Option.bind_eq_bind, Option.bind_eq_some_iff, Option.pure_def, Option.some.injEq] at h
  obtain ⟨value, hvalue, resourceClass, hclass, id, hid, rfl⟩ := h
  obtain ⟨heq, hne⟩ := classOfValue_eq_some hclass
  exact ⟨value, resourceClass, id, hvalue, heq, hne, hid, rfl⟩

theorem creation?_createHandleFromBinding {creation : HandleCreation}
    (hopcode : instruction.opcode = .createHandleFromBinding)
    (h : instruction.creation? = some creation) :
    ∃ value resourceClass lowerBound space,
      aggregateIntegerOperandUInt32 instruction.operands 1 0 = some lowerBound ∧
      aggregateIntegerOperandUInt32 instruction.operands 1 2 = some space ∧
      aggregateIntegerOperandUInt32 instruction.operands 1 3 = some value ∧
      translationResourceClassFromValue value = resourceClass ∧ resourceClass ≠ .unknown ∧
      creation = .binding resourceClass space lowerBound
        (integerOperandUInt32 instruction.operands 2) := by
  unfold creation? at h
  rw [hopcode] at h
  simp only [Option.bind_eq_bind, Option.bind_eq_some_iff, Option.pure_def, Option.some.injEq] at h
  obtain ⟨lowerBound, hlower, space, hspace, value, hvalue, resourceClass, hclass, rfl⟩ := h
  obtain ⟨heq, hne⟩ := classOfValue_eq_some hclass
  exact ⟨value, resourceClass, lowerBound, space, hlower, hspace, hvalue, heq, hne, rfl⟩

/-- A creation puts its entry under the names of its result. -/
theorem bindHandle_creation {creation : HandleCreation} (h : instruction.creation? = some creation)
    (handles : ValueName → Option DxilResourceUseHandle) :
    bindHandle (parseDxilOperation instruction) resources handles =
      bindName (bindName handles instruction.resultName (creation.handle resources))
        instruction.resultText (creation.handle resources) := by
  cases hopcode : instruction.opcode with
  | createHandle =>
    obtain ⟨value, resourceClass, id, hvalue, hclass, hne, hid, rfl⟩ :=
      creation?_createHandle hopcode h
    simp [bindHandle, parseDxilOperation, hopcode, parseDxilTypedOperation, hvalue, hid,
      classifyDxilOperation, resourceUseHandleFromOperation, operationResourceClass, hclass, hne,
      HandleCreation.handle, HandleCreation.number]
  | createHandleFromBinding =>
    obtain ⟨value, resourceClass, lowerBound, space, hlower, hspace, hvalue, hclass, hne, rfl⟩ :=
      creation?_createHandleFromBinding hopcode h
    have hnone := integerOperandUInt32_of_aggregate hlower
    cases hindex : integerOperandUInt32 instruction.operands 2 <;>
      simp [bindHandle, parseDxilOperation, hopcode, parseDxilTypedOperation, hvalue, hlower,
        hspace, hindex, hnone, classifyDxilOperation, resourceUseHandleFromOperation,
        operationResourceClass, hclass, hne, HandleCreation.handle, HandleCreation.number]
  | _ =>
    unfold creation? at h
    rw [hopcode] at h
    cases h

/-- An annotation passes on the entry of the handle that it names. -/
theorem bindHandle_annotateHandle (hopcode : instruction.opcode = .annotateHandle)
    (hfirst : integerOperandUInt32 instruction.operands 1 = none)
    (hsecond : integerOperandUInt32 instruction.operands 2 = none) :
    bindHandle (parseDxilOperation instruction) resources (handlesOf resources names) =
      match lookupName names (parseDxilOperation instruction) with
      | none => handlesOf resources names
      | some creation =>
        bindName (bindName (handlesOf resources names) instruction.resultName
          (creation.handle resources)) instruction.resultText (creation.handle resources) := by
  have hparse : parseDxilOperation instruction =
      { resultName := instruction.resultName
        resultText := instruction.resultText
        opcode := .annotateHandle
        semanticKind := .resourceHandle
        resourceId := none
        typed := { operands := appendTypedOperands instruction.operands 2 } } := by
    simp [parseDxilOperation, hopcode, parseDxilTypedOperation, classifyDxilOperation, hfirst,
      hsecond]
  have hlookup : resourceUseHandleFromOperation (parseDxilOperation instruction) resources
      (handlesOf resources names) =
        ((lookupName names (parseDxilOperation instruction)).map
          (HandleCreation.handle resources)).getD {} := by
    rw [← lookup_handlesOf, hparse]
    rfl
  unfold bindHandle
  rw [hlookup, hparse]
  cases lookupName names _ <;> rfl

/-- The map of handles is that of the names. -/
theorem bindHandle_handlesOf (hhandle : instruction.isHandle) (hsupported : instruction.Supported) :
    bindHandle (parseDxilOperation instruction) resources (handlesOf resources names) =
      handlesOf resources (nameHandle names instruction) := by
  have h := (hsupported.1 hhandle).2
  unfold nameHandle
  split at h
  · next hopcode =>
    have hcreation : instruction.creation? = none := by
      unfold creation?
      rw [hopcode]
    rw [bindHandle_annotateHandle hopcode h.1 h.2, hcreation, Option.orElse_apply,
      Option.orElse_none]
    cases lookupName names (parseDxilOperation instruction) with
    | none => rfl
    | some creation =>
      dsimp only
      rw [handlesOf_bindName, handlesOf_bindName]
  · obtain ⟨creation, hcreation⟩ := Option.isSome_iff_exists.mp h
    rw [bindHandle_creation hcreation, hcreation, Option.orElse_apply, Option.orElse_some]
    dsimp only
    rw [handlesOf_bindName, handlesOf_bindName]

/-- An operation that makes no handle has no number and no binding of its own. -/
theorem parseDxilOperation_of_not_isHandle (h : ¬ instruction.isHandle) :
    (parseDxilOperation instruction).resourceId = none ∧
      (parseDxilOperation instruction).typed.resourceBinding = none := by
  unfold isHandle at h
  refine ⟨if_neg h, ?_⟩
  unfold parseDxilOperation parseDxilTypedOperation
  cases hopcode : instruction.opcode <;> first | rfl | (rw [hopcode] at h; exact absurd rfl h)

/-- What an operation that uses a handle is after the propagation. -/
theorem useHandle_handlesOf (h : ¬ instruction.isHandle) :
    ∃ operation, useHandle (parseDxilOperation instruction)
        (resourceUseHandleFromOperation (parseDxilOperation instruction) resources
          (handlesOf resources names)) = operation ∧
      operation.opcode = instruction.opcode ∧
      operation.semanticKind = classifyDxilOperation instruction.opcode ∧
      operation.typed.resourceBinding = none ∧
      operation.resourceId = (lookupName names (parseDxilOperation instruction)).bind
        (HandleCreation.number resources) := by
  obtain ⟨hid, hbinding⟩ := parseDxilOperation_of_not_isHandle h
  refine ⟨_, rfl, ?_⟩
  have hlookup : resourceUseHandleFromOperation (parseDxilOperation instruction) resources
      (handlesOf resources names) =
        ((lookupName names (parseDxilOperation instruction)).map
          (HandleCreation.handle resources)).getD {} := by
    rw [← lookup_handlesOf]
    unfold resourceUseHandleFromOperation
    rw [hid, hbinding]
  rw [hlookup]
  cases lookupName names (parseDxilOperation instruction) with
  | none => exact ⟨rfl, rfl, hbinding, hid⟩
  | some creation =>
    refine ⟨rfl, rfl, hbinding, ?_⟩
    show (creation.number resources <|> (parseDxilOperation instruction).resourceId) = _
    rw [hid, Option.orElse_apply, Option.orElse_eq_or, Option.or_none]
    rfl

/-! ## The marks -/

/-- The resource is that of the operation, by number or by binding. -/
def resourceMatches (resource : DxilTranslationResourceInfo)
    (operation : DxilTranslationOperationInfo) : Bool :=
  idMatches resource operation || bindingMatches resource operation

theorem resourceMatches_applyOperation (operation other : DxilTranslationOperationInfo) :
    resourceMatches (applyOperationToTranslationResource resource operation) other =
      resourceMatches resource other := by
  unfold applyOperationToTranslationResource
  split
  · rfl
  · cases operation.semanticKind with
    | resourceWrite =>
      dsimp only
      split <;> rfl
    | _ => rfl

/-- An operation marks what the classification of its opcode says. -/
theorem has_applyOperation (h : operation.semanticKind = classifyDxilOperation operation.opcode) :
    (applyOperationToTranslationResource resource operation).has mark =
      (resource.has mark || (resourceMatches resource operation &&
        operation.opcode.marks mark)) := by
  unfold applyOperationToTranslationResource resourceMatches
  split
  · next hnone => rw [hnone, Bool.false_and, Bool.or_false]
  · next hsome =>
    rw [Bool.not_eq_false] at hsome
    rw [hsome, Bool.true_and, h]
    cases operation.opcode <;> cases mark <;>
      simp [classifyDxilOperation, DxilTranslationResourceInfo.has, DxilOpcode.marks]

theorem has_foldl_applyOperation {operations : List DxilTranslationOperationInfo}
    (h : ∀ operation ∈ operations,
      operation.semanticKind = classifyDxilOperation operation.opcode) :
    (operations.foldl applyOperationToTranslationResource resource).has mark =
      (resource.has mark || operations.any fun operation =>
        resourceMatches resource operation && operation.opcode.marks mark) := by
  induction operations generalizing resource with
  | nil => exact (Bool.or_false _).symm
  | cons operation operations ih =>
    rw [List.forall_mem_cons] at h
    rw [List.foldl_cons, ih h.2, has_applyOperation h.1, List.any_cons, Bool.or_assoc]
    simp only [resourceMatches_applyOperation]

/-- The operations after the propagation that are no handle operations mark what the uses reach. -/
theorem propagate_spec {instructions : List LlvmDxilInstruction}
    (hsupported : ∀ instruction ∈ instructions, instruction.Supported)
    (values : ValueName × ValueName → Option HandleCreation) :
    let operations := propagateTranslationResourceUses resources (handlesOf resources names)
      (instructions.map parseDxilOperation)
    (∀ operation ∈ operations, operation.semanticKind = classifyDxilOperation operation.opcode) ∧
      List.Forall₂ (fun operation use =>
          operation.semanticKind = classifyDxilOperation operation.opcode ∧ ∀ resource mark,
            (resourceMatches resource operation && operation.opcode.marks mark) = true ↔
              use.Reaches resources mark resource)
        (operations.filter fun operation => operation.semanticKind ≠ .resourceHandle)
        (usesFrom values names instructions) := by
  induction instructions generalizing values names with
  | nil => exact ⟨(fun _ h => absurd h List.not_mem_nil), .nil⟩
  | cons instruction instructions ih =>
    rw [List.forall_mem_cons] at hsupported
    rw [List.map_cons, propagateTranslationResourceUses, usesFrom]
    by_cases hhandle : instruction.isHandle
    · -- a handle operation marks nothing, and binds its names
      have hkind : (parseDxilOperation instruction).semanticKind = .resourceHandle := hhandle
      rw [if_pos hkind, if_pos hhandle, bindHandle_handlesOf hhandle hsupported.1]
      obtain ⟨hclassified, hmarks⟩ := @ih (nameHandle names instruction) hsupported.2
        (scopeHandle values instruction)
      refine ⟨List.forall_mem_cons.mpr ⟨rfl, hclassified⟩, ?_⟩
      rw [List.filter_cons_of_neg (by simpa using hkind)]
      exact hmarks
    · have hkind : ¬ (parseDxilOperation instruction).semanticKind = .resourceHandle := hhandle
      rw [if_neg hkind, if_neg hhandle]
      obtain ⟨hclassified, hmarks⟩ := @ih names hsupported.2 values
      obtain ⟨operation, heq, hopcode, hclass, hbinding, hid⟩ :=
        @useHandle_handlesOf resources _ names hhandle
      rw [heq]
      refine ⟨List.forall_mem_cons.mpr ⟨hopcode ▸ hclass, hclassified⟩, ?_⟩
      have hkind' : ¬ operation.semanticKind = .resourceHandle := by
        rw [hclass]
        exact hhandle
      rw [List.filter_cons_of_pos (by simpa using hkind')]
      refine .cons ⟨hopcode ▸ hclass, fun resource mark => ?_⟩ hmarks
      unfold resourceMatches bindingMatches idMatches HandleUse.Reaches
      rw [hbinding, hid, hopcode, Bool.or_false, Bool.and_eq_true, decide_eq_true_eq,
        Option.bind_eq_some_iff, and_comm]

theorem exists_of_forall₂ {α β : Type} {p : α → Prop} {q : β → Prop} {xs : List α} {ys : List β}
    (h : List.Forall₂ (fun x y => p x ↔ q y) xs ys) : (∃ x ∈ xs, p x) ↔ ∃ y ∈ ys, q y := by
  induction h with
  | nil => simp
  | cons hxy _ ih => rw [List.exists_mem_cons_iff, List.exists_mem_cons_iff, hxy, ih]

/-- What all operations mark together. -/
theorem any_marks {instructions : List LlvmDxilInstruction}
    (hsupported : ∀ instruction ∈ instructions, instruction.Supported)
    (values : ValueName × ValueName → Option HandleCreation) :
    ((propagateTranslationResourceUses resources (handlesOf resources names)
        (instructions.map parseDxilOperation)).any fun operation =>
          resourceMatches resource operation && operation.opcode.marks mark) = true ↔
      ∃ use ∈ usesFrom values names instructions, use.Reaches resources mark resource := by
  obtain ⟨hclassified, hmarks⟩ := @propagate_spec resources names instructions hsupported values
  rw [← exists_of_forall₂ (hmarks.imp fun _ _ h => h.2 resource mark), List.any_eq_true]
  refine exists_congr fun operation => ?_
  rw [List.mem_filter, and_assoc]
  refine and_congr_right fun hmem => ?_
  refine (and_iff_right_of_imp fun hmarked => ?_).symm
  rw [decide_eq_true_eq]
  intro hhandle
  rw [Bool.and_eq_true] at hmarked
  have hkind : classifyDxilOperation operation.opcode = .resourceHandle :=
    (hclassified operation hmem).symm.trans hhandle
  have hnone : operation.opcode.marks mark = false := by
    cases hopcode : operation.opcode <;> rw [hopcode] at hkind <;>
      first | (cases mark <;> rfl) | exact absurd hkind (by decide)
  exact Bool.false_ne_true (hnone.symm.trans hmarked.2)

theorem getElem?_translationResources (infos : List ShaderReflectionResourceInfo)
    (instructions : List LlvmDxilInstruction) (i : Nat) :
    (translationResources infos instructions)[i]? = infos[i]?.map fun info =>
      (propagateTranslationResourceUses (infos.map buildTranslationResource)
        (handlesOf (infos.map buildTranslationResource) fun _ => none)
        (instructions.map parseDxilOperation)).foldl applyOperationToTranslationResource
          (buildTranslationResource info) := by
  unfold translationResources
  rw [List.getElem?_map, List.getElem?_map, Option.map_map]
  rfl

/-- A resource is marked when its number is that of some use. -/
theorem has_translationResources {infos : List ShaderReflectionResourceInfo}
    {instructions : List LlvmDxilInstruction} {i : Nat} {info : ShaderReflectionResourceInfo}
    (hsupported : ∀ instruction ∈ instructions, instruction.Supported)
    (hinfo : infos[i]? = some info)
    (hresource : (translationResources infos instructions)[i]? = some resource) :
    resource.has mark = true ↔ ∃ use ∈ handleUses instructions,
      use.Reaches (infos.map buildTranslationResource) mark (buildTranslationResource info) := by
  rw [getElem?_translationResources, hinfo] at hresource
  cases hresource
  obtain ⟨hclassified, -⟩ := @propagate_spec (infos.map buildTranslationResource) (fun _ => none)
    _ hsupported (fun _ => none)
  have hunmarked : (buildTranslationResource info).has mark = false := by cases mark <;> rfl
  rw [has_foldl_applyOperation hclassified, hunmarked, Bool.false_or]
  exact any_marks hsupported _

/-! ## The names -/

/-- The handle operation that made the last value of each name, in whatever function. -/
def bindMaker (makers : ValueName → Option LlvmDxilInstruction)
    (instruction : LlvmDxilInstruction) : ValueName → Option LlvmDxilInstruction :=
  if instruction.isHandle then Function.update makers instruction.resultKey (some instruction)
  else makers

/-- The last value before the instruction that has the name of its handle operand is the operand
itself, when there is one. An annotation has one. -/
def OperandResolves (makers : ValueName → Option LlvmDxilInstruction)
    (instruction : LlvmDxilInstruction) : Prop :=
  match makers (normalizeLlvmValueName instruction.handleText) with
  | none => instruction.opcode ≠ .annotateHandle
  | some maker =>
    maker.functionName = instruction.functionName ∧ maker.resultText = instruction.handleText

/-- The handle operands of the annotations and of the operations that access something resolve. -/
def NamesResolveFrom (makers : ValueName → Option LlvmDxilInstruction) :
    List LlvmDxilInstruction → Prop
  | [] => True
  | instruction :: instructions =>
    (instruction.opcode = .annotateHandle ∨ instruction.opcode.attributed = true →
        OperandResolves makers instruction) ∧
      NamesResolveFrom (bindMaker makers instruction) instructions

instance (makers : ValueName → Option LlvmDxilInstruction) (instruction : LlvmDxilInstruction) :
    Decidable (OperandResolves makers instruction) := by
  unfold OperandResolves
  cases makers (normalizeLlvmValueName instruction.handleText) <;> infer_instance

instance decidableNamesResolveFrom : (makers : ValueName → Option LlvmDxilInstruction) →
    (instructions : List LlvmDxilInstruction) → Decidable (NamesResolveFrom makers instructions)
  | _, [] => isTrue trivial
  | makers, instruction :: instructions =>
    have := decidableNamesResolveFrom (bindMaker makers instruction) instructions
    inferInstanceAs (Decidable ((_ → _) ∧ _))

/-- No name of a handle operand is taken for a value of another function. -/
def NamesResolve (instructions : List LlvmDxilInstruction) : Prop :=
  NamesResolveFrom (fun _ => none) instructions

instance (instructions : List LlvmDxilInstruction) : Decidable (NamesResolve instructions) :=
  decidableNamesResolveFrom _ instructions

/-- The names lead to the values that were made last. -/
structure NamesAgree (makers : ValueName → Option LlvmDxilInstruction)
    (values : ValueName × ValueName → Option HandleCreation)
    (names : ValueName → Option HandleCreation) : Prop where
  key : ∀ name maker, makers name = some maker → name ≠ [] ∧ maker.resultKey = name
  made : ∀ name maker, makers name = some maker →
    ∃ creation, names name = some creation ∧
      values (maker.functionName, maker.resultText) = some creation
  unmade : ∀ name, makers name = none →
    names name = none ∧ ∀ f text, normalizeLlvmValueName text = name → values (f, text) = none

variable {makers : ValueName → Option LlvmDxilInstruction}
  {values : ValueName × ValueName → Option HandleCreation}

/-- An operand that is seen and resolves leads to its value. -/
theorem NamesAgree.lookup (h : NamesAgree makers values names) (htyped : instruction.HasTypedHandle)
    (hresolves : OperandResolves makers instruction) :
    lookupName names (parseDxilOperation instruction) =
      values (instruction.functionName, instruction.handleText) := by
  unfold OperandResolves at hresolves
  unfold lookupName
  rw [htyped]
  cases hmaker : makers (normalizeLlvmValueName instruction.handleText) with
  | none =>
    obtain ⟨hname, hvalues⟩ := h.unmade _ hmaker
    rw [hname, ite_self, hvalues _ _ rfl]
  | some maker =>
    rw [hmaker] at hresolves
    obtain ⟨creation, hname, hvalue⟩ := h.made _ _ hmaker
    rw [if_neg (h.key _ _ hmaker).1, hname, ← hresolves.1, ← hresolves.2, hvalue]

/-- An annotation has its handle as a typed operand. -/
theorem hasTypedHandle_annotateHandle (h : instruction.opcode = .annotateHandle) :
    instruction.HasTypedHandle := by
  unfold HasTypedHandle dxilHandleOperandName handleText parseDxilOperation
  rw [h]
  rcases instruction.operands with _ | ⟨_, _ | ⟨_, _⟩⟩ <;> rfl

/-- Both names of a result are its key. -/
theorem bindName_bindName (hresult : instruction.HasNames) (creation : HandleCreation) :
    bindName (bindName names instruction.resultName creation) instruction.resultText creation =
      Function.update names instruction.resultKey (some creation) := by
  have htext : instruction.resultText ≠ [] := fun hnil => hresult.1 (by
    unfold LlvmDxilInstruction.resultKey
    rw [hnil]
    rfl)
  unfold bindName
  rw [if_neg htext]
  split
  · rfl
  · next hne =>
    rw [hresult.2.resolve_left hne]
    exact Function.update_idem _ _ _

/-- A handle operation gives one creation to its value and to its name. -/
theorem NamesAgree.creation (h : NamesAgree makers values names) (hhandle : instruction.isHandle)
    (hsupported : instruction.Supported)
    (hresolves : instruction.opcode = .annotateHandle → OperandResolves makers instruction) :
    ∃ creation, scopeHandle values instruction =
        Function.update values (instruction.functionName, instruction.resultText)
          (some creation) ∧
      nameHandle names instruction =
        Function.update names instruction.resultKey (some creation) := by
  have hmade := (hsupported.1 hhandle).2
  have hnames := fun creation =>
    @bindName_bindName instruction names (hsupported.1 hhandle).1 creation
  unfold scopeHandle nameHandle
  cases hcreation : instruction.creation? with
  | some creation => exact ⟨creation, rfl, hnames creation⟩
  | none =>
    have hopcode : instruction.opcode = .annotateHandle := by
      split at hmade
      · assumption
      · rw [hcreation] at hmade
        cases hmade
    have hresolved := hresolves hopcode
    have hlookup := h.lookup (hasTypedHandle_annotateHandle hopcode) hresolved
    unfold OperandResolves at hresolved
    split at hresolved
    · exact absurd hopcode hresolved
    · next maker hmaker =>
      obtain ⟨creation, -, hvalue⟩ := h.made _ _ hmaker
      rw [hresolved.1, hresolved.2] at hvalue
      rw [Option.orElse_apply, Option.orElse_none, hlookup, hvalue]
      exact ⟨creation, rfl, hnames creation⟩

/-- **A handle operation** keeps the agreement. -/
theorem NamesAgree.bind (h : NamesAgree makers values names) (hhandle : instruction.isHandle)
    (hsupported : instruction.Supported)
    (hresolves : instruction.opcode = .annotateHandle → OperandResolves makers instruction) :
    NamesAgree (bindMaker makers instruction) (scopeHandle values instruction)
      (nameHandle names instruction) := by
  obtain ⟨creation, hvalue, hname⟩ := h.creation hhandle hsupported hresolves
  rw [hvalue, hname]
  unfold bindMaker
  rw [if_pos hhandle]
  -- a value with another key is not the one that is made
  have hother {f text : ValueName}
      (hne : normalizeLlvmValueName text ≠ instruction.resultKey) :
      (f, text) ≠ (instruction.functionName, instruction.resultText) := fun heq =>
    hne (congrArg normalizeLlvmValueName (Prod.mk.inj heq).2)
  refine ⟨fun name maker hmaker => ?_, fun name maker hmaker => ?_, fun name hmaker => ?_⟩
  · by_cases hkey : name = instruction.resultKey
    · rw [hkey, Function.update_self] at hmaker
      cases hmaker
      exact ⟨hkey ▸ (hsupported.1 hhandle).1.1, hkey.symm⟩
    · rw [Function.update_of_ne hkey] at hmaker
      exact h.key name maker hmaker
  · by_cases hkey : name = instruction.resultKey
    · rw [hkey, Function.update_self] at hmaker
      cases hmaker
      exact ⟨creation, hkey ▸ Function.update_self _ _ _, Function.update_self _ _ _⟩
    · rw [Function.update_of_ne hkey] at hmaker
      rw [Function.update_of_ne hkey,
        Function.update_of_ne (hother fun heq => hkey ((h.key _ _ hmaker).2.symm.trans heq))]
      exact h.made name maker hmaker
  · by_cases hkey : name = instruction.resultKey
    · rw [hkey, Function.update_self] at hmaker
      cases hmaker
    · rw [Function.update_of_ne hkey] at hmaker ⊢
      refine ⟨(h.unmade name hmaker).1, fun f text htext => ?_⟩
      rw [Function.update_of_ne (hother (htext.symm ▸ hkey))]
      exact (h.unmade name hmaker).2 f text htext

theorem NamesAgree.empty : NamesAgree (fun _ => none) (fun _ => none) (fun _ => none) where
  key := nofun
  made := nofun
  unmade := fun _ _ => ⟨rfl, fun _ _ _ => rfl⟩

/-- An attributed operation has its handle as a typed operand. -/
theorem hasTypedHandle_attributed (h : instruction.opcode.attributed = true) :
    instruction.HasTypedHandle := by
  unfold HasTypedHandle dxilHandleOperandName handleText parseDxilOperation
  cases hopcode : instruction.opcode <;> rw [hopcode] at h <;>
    first
    | exact absurd h (by decide)
    | rcases instruction.operands with _ | ⟨_, _ | ⟨_, _⟩⟩ <;> rfl

/-- An operation that is not attributed but marks something has no typed operand. -/
theorem lookupName_unattributed (hsupported : instruction.Supported)
    (hattributed : instruction.opcode.attributed = false)
    (hmarks : instruction.opcode.marks mark = true) :
    lookupName names (parseDxilOperation instruction) = none := by
  have hoperands : (parseDxilOperation instruction).typed.operands = [] := by
    have hlength := hsupported.2
    unfold parseDxilOperation
    cases hopcode : instruction.opcode <;> rw [hopcode] at hattributed hmarks <;>
      first
      | rfl
      | exact absurd hattributed (by decide)
      | (cases mark <;> exact absurd hmarks (by decide))
      | (dsimp only [parseDxilTypedOperation, appendTypedOperands]
         rw [List.drop_eq_nil_of_le (hlength hopcode), List.take_nil])
  unfold lookupName dxilHandleOperandName
  rw [hoperands]
  exact if_pos rfl

/-- What a use finds: its origin when the operation is attributed, and nothing when it marks
something without being so. -/
structure HandleUse.Resolved (use : HandleUse) : Prop where
  attributed : use.instruction.opcode.attributed = true → use.found = use.origin
  unattributed : use.instruction.opcode.attributed = false →
    ∀ mark, use.instruction.opcode.marks mark = true → use.found = none

/-- Where the names resolve so do the uses, by induction on the operations that are left. -/
theorem resolved_of_mem_usesFrom {instructions : List LlvmDxilInstruction} {use : HandleUse}
    (hsupported : ∀ instruction ∈ instructions, instruction.Supported)
    (hagree : NamesAgree makers values names) (hresolve : NamesResolveFrom makers instructions)
    (huse : use ∈ usesFrom values names instructions) : use.Resolved := by
  induction instructions generalizing makers values names with
  | nil => exact absurd huse List.not_mem_nil
  | cons instruction instructions ih =>
    rw [List.forall_mem_cons] at hsupported
    obtain ⟨hoperand, hrest⟩ := hresolve
    unfold usesFrom at huse
    split at huse
    · next hhandle =>
      exact ih hsupported.2 (hagree.bind hhandle hsupported.1 fun h => hoperand (.inl h)) hrest huse
    · next hhandle =>
      have hmakers : bindMaker makers instruction = makers := if_neg hhandle
      rw [hmakers] at hrest
      rcases List.mem_cons.mp huse with rfl | huse
      · exact
          { attributed := fun h =>
              hagree.lookup (hasTypedHandle_attributed h) (hoperand (.inr h))
            unattributed := fun h _ hmarks =>
              lookupName_unattributed hsupported.1 h hmarks }
      · exact ih hsupported.2 hagree hrest huse

/-! ## The numbers -/

namespace HandleCreation

/-- The number that stands for the creation is that of the resources it names and of no other. -/
def Unambiguous (resources : List DxilTranslationResourceInfo) : HandleCreation → Prop
  -- no resource of another class has the id
  | range resourceClass id => ∀ resource ∈ resources, resource.id = id →
      resource.resourceClass = resourceClass
  -- the register index is taken for the id
  | binding resourceClass space lowerBound (some index) => ∀ resource ∈ resources,
      resource.id = index ↔ resource.resourceClass = resourceClass ∧ resource.space = space ∧
        resource.lowerBound = lowerBound
  -- a resource at the binding shares its id with those at the binding alone
  | binding resourceClass space lowerBound none => ∀ resource ∈ resources,
      resource.resourceClass = resourceClass ∧ resource.space = space ∧
          resource.lowerBound = lowerBound →
        ∀ other ∈ resources, other.id = resource.id ↔ other.resourceClass = resourceClass ∧
          other.space = space ∧ other.lowerBound = lowerBound

instance (resources : List DxilTranslationResourceInfo) :
    (creation : HandleCreation) → Decidable (creation.Unambiguous resources)
  | range _ _ => inferInstanceAs (Decidable (∀ _ ∈ resources, _ → _))
  | binding _ _ _ (some _) => inferInstanceAs (Decidable (∀ _ ∈ resources, _ ↔ _))
  | binding _ _ _ none =>
    inferInstanceAs (Decidable (∀ _ ∈ resources, _ → ∀ _ ∈ resources, _ ↔ _))

/-- The resource found for a binding is a listed one at the binding. -/
theorem resourceOfBinding_eq_some {resourceClass : DxilTranslationResourceClass}
    {binding : DxilResourceBinding}
    (h : resourceOfBinding resources resourceClass binding = some resource) :
    resource ∈ resources ∧ resource.resourceClass = resourceClass ∧
      resource.space = binding.space ∧ resource.lowerBound = binding.lowerBound := by
  unfold resourceOfBinding at h
  have hnames := List.find?_some h
  rw [decide_eq_true_eq] at hnames
  exact ⟨List.mem_of_find?_eq_some h, hnames⟩

/-- A creation is unambiguous when its number is that of a resource just where it names it. -/
theorem unambiguous_iff (creation : HandleCreation) : creation.Unambiguous resources ↔
    ∀ resource ∈ resources,
      creation.number resources = some resource.id ↔ creation.Names resource := by
  cases creation with
  | range resourceClass id =>
    refine forall₂_congr fun resource _ => ?_
    dsimp only [number, Names]
    rw [Option.some.injEq]
    exact ⟨fun h => ⟨fun heq => ⟨h heq.symm, heq.symm⟩, fun hnames => hnames.2.symm⟩,
      fun h heq => (h.mp heq.symm).1⟩
  | binding resourceClass space lowerBound index =>
    cases index with
    | some index =>
      refine forall₂_congr fun resource _ => ?_
      dsimp only [number, Names]
      rw [Option.some.injEq, eq_comm]
    | none =>
      dsimp only [Unambiguous, number, Names]
      cases hfound : resourceOfBinding resources resourceClass ⟨space, lowerBound⟩ with
      | none =>
        -- the creation names nothing and has no number
        have hnone := List.find?_eq_none.mp hfound
        have hnames {resource : DxilTranslationResourceInfo} (hresource : resource ∈ resources) :
            ¬(resource.resourceClass = resourceClass ∧ resource.space = space ∧
              resource.lowerBound = lowerBound) := of_decide_eq_false
          (eq_false_of_ne_true (hnone resource hresource))
        exact ⟨fun _ resource hresource => ⟨nofun, fun h => absurd h (hnames hresource)⟩,
          fun _ resource hresource h => absurd h (hnames hresource)⟩
      | some first =>
        obtain ⟨hmem, hfirst⟩ := resourceOfBinding_eq_some hfound
        rw [Option.map_some]
        simp only [Option.some.injEq]
        constructor
        · intro h resource hresource
          rw [eq_comm]
          exact h first hmem hfirst resource hresource
        · intro h resource hresource hnames other hother
          rw [← (h resource hresource).mpr hnames, eq_comm]
          exact h other hother

end HandleCreation

namespace HandleUse

/-- The use marks what it accesses: an attributed operation uses a handle with an unambiguous
number, and another one that accesses something uses no handle of a listed resource. -/
def Attributable (resources : List DxilTranslationResourceInfo) (use : HandleUse) : Prop :=
  ∀ creation, use.origin = some creation →
    (use.instruction.opcode.attributed = true → creation.Unambiguous resources) ∧
    (use.instruction.opcode.unattributed = true →
      ∀ resource ∈ resources, ¬creation.Names resource)

/-- The use reaches exactly what it accesses. -/
theorem attributable_iff {use : HandleUse} (hresolved : use.Resolved) :
    use.Attributable resources ↔ ∀ resource ∈ resources, ∀ mark,
      use.Reaches resources mark resource ↔ use.Accesses mark resource := by
  unfold Attributable Reaches Accesses
  cases hattributed : use.instruction.opcode.attributed with
  | true =>
    rw [hresolved.attributed hattributed]
    have hsame := DxilOpcode.marks_attributed hattributed
    obtain ⟨mark, hmark⟩ := DxilOpcode.exists_accesses (.inl hattributed)
    have hother := DxilOpcode.not_unattributed hattributed
    cases horigin : use.origin with
    | none => simp
    | some creation =>
      simp only [hother, Option.some.injEq, forall_eq', exists_eq_left', hsame,
        HandleCreation.unambiguous_iff, Bool.false_eq_true, false_imp_iff, and_true, true_imp_iff]
      exact ⟨fun h resource hresource mark => and_congr_right fun _ => h resource hresource,
        fun h resource hresource => by simpa [hmark] using h resource hresource mark⟩
  | false =>
    have hfound (mark : AccessMark) (resource : DxilTranslationResourceInfo) :
        ¬(use.instruction.opcode.marks mark = true ∧ ∃ creation, use.found = some creation ∧
          creation.number resources = some resource.id) := by
      rintro ⟨hmarks, creation, hfound, -⟩
      rw [hresolved.unattributed hattributed mark hmarks] at hfound
      cases hfound
    simp only [hfound, false_iff, Bool.false_eq_true, false_imp_iff, true_and]
    constructor
    · rintro h resource hresource mark ⟨hmark, creation, horigin, hnames⟩
      exact h creation horigin (DxilOpcode.unattributed_of_accesses hattributed hmark) resource
        hresource hnames
    · intro h creation horigin hunattributed resource hresource hnames
      obtain ⟨mark, hmark⟩ := DxilOpcode.exists_accesses (.inr hunattributed)
      exact h resource hresource mark ⟨hmark, creation, horigin, hnames⟩

end HandleUse

/-! ## Exactness -/

/-- The attribution is exact: a resource has a mark when some operation accesses it so, and every
operation marks exactly the resources that it accesses. -/
structure AttributionExact (infos : List ShaderReflectionResourceInfo)
    (instructions : List LlvmDxilInstruction) : Prop where
  marks : ∀ (i : Nat) (info : ShaderReflectionResourceInfo)
    (resource : DxilTranslationResourceInfo), infos[i]? = some info →
      (translationResources infos instructions)[i]? = some resource → ∀ mark,
        resource.has mark = true ↔
          ∃ use ∈ handleUses instructions, use.Accesses mark (buildTranslationResource info)
  operations : List.Forall₂ (fun operation use => ∀ info ∈ infos, ∀ mark,
      (applyOperationToTranslationResource (buildTranslationResource info) operation).has mark =
          true ↔ use.Accesses mark (buildTranslationResource info))
    ((propagateTranslationResourceUses (infos.map buildTranslationResource) (fun _ => none)
      (instructions.map parseDxilOperation)).filter fun operation =>
        operation.semanticKind ≠ .resourceHandle)
    (handleUses instructions)

/-- Two relations of which one is the other on related elements relate the same lists. -/
theorem forall₂_iff_forall {α β : Type} {p : α → β → Prop} {q : β → Prop} {r : α → β → Prop}
    {xs : List α} {ys : List β} (h : List.Forall₂ r xs ys)
    (hiff : ∀ x y, r x y → y ∈ ys → (p x y ↔ q y)) :
    List.Forall₂ p xs ys ↔ ∀ y ∈ ys, q y := by
  induction h with
  | nil => simp
  | cons hxy _ ih =>
    rw [List.forall₂_cons, List.forall_mem_cons, hiff _ _ hxy List.mem_cons_self,
      ih fun x y hr hy => hiff x y hr (List.mem_cons_of_mem _ hy)]

theorem has_buildTranslationResource (info : ShaderReflectionResourceInfo) (mark : AccessMark) :
    (buildTranslationResource info).has mark = false := by
  cases mark <;> rfl

/-- A shader resource view and an unordered access view with the number `id`. -/
def viewAnd (id : Nat) : List ShaderReflectionResourceInfo :=
  [{ resourceClass := 0, id := 0 }, { resourceClass := 1, id := id, lowerBound := 5 }]

/-- A handle of the unordered access view with the number `id`, and a store. -/
def storeTo (id : Nat) : List LlvmDxilInstruction :=
  [{ functionName := ['f'], resultText := ['%', '1'], opcode := .createHandle,
      operands := [⟨[], .integer 57⟩, ⟨[], .integer 1⟩, ⟨[], .integer id⟩, ⟨[], .integer 5⟩] },
    { functionName := ['f'], opcode := .bufferStore,
      operands := [⟨[], .integer 69⟩, ⟨['%', '1'], .none⟩] }]

/-- A handle of the same view from its binding, with the register for a constant index. -/
def storeThroughBinding : List LlvmDxilInstruction :=
  [{ functionName := ['f'], resultText := ['%', '1'], opcode := .createHandleFromBinding,
      operands := [⟨[], .integer 217⟩, ⟨[], .aggregate [5, 5, 0, 1]⟩, ⟨[], .integer 5⟩] },
    { functionName := ['f'], opcode := .bufferStore,
      operands := [⟨[], .integer 69⟩, ⟨['%', '1'], .none⟩] }]

/-- The register index is taken for the number of the resource, and the store is not marked. -/
theorem index_taken_for_id : (∀ instruction ∈ storeThroughBinding, instruction.Supported) ∧
    ¬ AttributionExact (viewAnd 1) storeThroughBinding := by
  refine ⟨by decide, fun hexact => ?_⟩
  exact absurd ((hexact.marks 1 _ _ rfl rfl .written).mpr (by decide)) (by decide)

end Dxmt
