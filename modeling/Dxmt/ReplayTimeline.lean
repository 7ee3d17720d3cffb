import Dxmt.Footprint
import Dxmt.GraphicsBatch

/-!
# Commands that the CPU evaluates: `ReplayExecuteIndirect`, `ReplayResolveQueryData`

Three times stand for one point of the command stream. Predication, the count and the arguments of
the CPU fallback are read when the record is replayed, and immediate writes are done then; the other
commands run when the chunk is executed; query data is written when the chunk has completed. The
reference executor does a record at once, on one memory.

What a GPU command does to the memory is a parameter: any command with a footprint.

Result: `observes_reference`. When every replayed record is apart from the work that is outstanding,
the commands that the GPU executes are those of the reference, in order, and each of them reads what
it reads there.

Source: `d3d12_command_queue.cpp:2675-2690, 2872-2989, 3119-3257`, `d3d12_query.cpp`.
-/

namespace Dxmt

namespace Replay

open Footprint

variable {Payload : Type} {device : Device} {batching : Bool} {state : ReplayState Payload}
  {bound : BoundState} {m m' : Memory}

/-! ## What a record reads on the CPU -/

/-- The bytes of an allocation from a place on. -/
def byteRange (place : Location) (size : Nat) : Set Location :=
  {l | l.1 = place.1 ∧ place.2 ≤ l.2 ∧ l.2 < place.2 + size}

/-- The bytes that `ReadBufferBytes` copies. -/
def bufferBytes (device : Device) (resource : Option ObjectId) (offset size : Nat) : Set Location :=
  {l | ∃ place, bufferPlace device resource offset size = some place ∧ l ∈ byteRange place size}

/-- The bytes that the predicate is read from. -/
def predicationBytes (device : Device) (bound : BoundState) : Set Location :=
  if bound.predicationBuffer = none then ∅
  else bufferBytes device bound.predicationBuffer bound.predicationBufferOffset 8

/-- The bytes that the command count is read from. -/
def countBytes (device : Device) (record : ExecuteIndirectRecord) : Set Location :=
  if record.countBuffer = none then ∅
  else bufferBytes device record.countBuffer record.countBufferOffset 4

/-- The bytes that a command's arguments are read from. -/
def argumentBytes (device : Device) (record : ExecuteIndirectRecord) (signature : CommandSignature)
    (index : Nat) : Set Location :=
  bufferBytes device record.argBuffer (record.argBufferOffset + index * signature.byteStride)
    signature.byteStride

/-- The count and the arguments of the commands that it leaves. -/
def fallbackBytes (device : Device) (m : Memory) (record : ExecuteIndirectRecord) :
    IndirectPath → Set Location
  | .cpuFallback signature =>
    countBytes device record ∪ {l | ∃ count index, fallbackCount device m record = some count ∧
      index < count ∧ l ∈ argumentBytes device record signature index}
  | _ => ∅

/-- The bytes that the replay of a record reads on the CPU. -/
def cpuReads (device : Device) (m : Memory) (bound : BoundState) : Record Payload → Set Location
  | .drawInstanced _ => predicationBytes device bound
  | .drawIndexedInstanced _ => predicationBytes device bound
  | .dispatch _ => predicationBytes device bound
  | .executeIndirect record =>
    predicationBytes device bound ∪ fallbackBytes device m record
      (indirectPath device m bound record)
  | _ => ∅

/-- A read sees only the bytes of its range. -/
theorem readBufferBytes_congr {resource : Option ObjectId} {offset size : Nat}
    (h : ∀ l ∈ bufferBytes device resource offset size, m l = m' l) :
    readBufferBytes device m resource offset size =
      readBufferBytes device m' resource offset size := by
  unfold readBufferBytes
  cases hplace : bufferPlace device resource offset size with
  | none => rfl
  | some place =>
    refine congrArg some (List.map_congr_left fun i hi => h _ ⟨place, hplace, rfl, ?_, ?_⟩)
    · exact Nat.le_add_right _ _
    · exact Nat.add_lt_add_left (List.mem_range.mp hi) _

/-- The predicate is decided by its bytes. -/
theorem predicationAllows_congr (h : ∀ l ∈ predicationBytes device bound, m l = m' l) :
    predicationAllows device m bound = predicationAllows device m' bound := by
  unfold predicationAllows
  unfold predicationBytes at h
  by_cases hnone : bound.predicationBuffer = none
  · rw [if_pos hnone, if_pos hnone]
  · rw [if_neg hnone] at h
    rw [readBufferBytes_congr h]

theorem indirectPath_congr (h : ∀ l ∈ predicationBytes device bound, m l = m' l)
    (record : ExecuteIndirectRecord) :
    indirectPath device m bound record = indirectPath device m' bound record := by
  unfold indirectPath
  rw [predicationAllows_congr h]

theorem fallbackCount_congr {record : ExecuteIndirectRecord}
    (h : ∀ l ∈ countBytes device record, m l = m' l) :
    fallbackCount device m record = fallbackCount device m' record := by
  unfold fallbackCount
  unfold countBytes at h
  cases hcount : record.countBuffer with
  | none => rfl
  | some countBuffer =>
    rw [hcount, if_neg (Option.some_ne_none countBuffer)] at h
    dsimp only
    rw [readBufferBytes_congr h]

theorem indirectCommandsFrom_congr {record : ExecuteIndirectRecord} {signature : CommandSignature}
    {compute : Bool} {index remaining : Nat}
    (h : ∀ i < index + remaining, ∀ l ∈ argumentBytes device record signature i, m l = m' l) :
    indirectCommandsFrom device m compute record signature index remaining =
      indirectCommandsFrom device m' compute record signature index remaining := by
  induction remaining generalizing index with
  | zero => rfl
  | succ remaining ih =>
    unfold indirectCommandsFrom
    rw [readBufferBytes_congr (h index (by omega)), ih fun i hi => h i (by omega)]

/-- The commands of the fallback are decided by their bytes. -/
theorem indirectCommands_congr {record : ExecuteIndirectRecord} {signature : CommandSignature}
    (h : ∀ l ∈ fallbackBytes device m record (.cpuFallback signature), m l = m' l) :
    indirectCommands device m bound record signature =
      indirectCommands device m' bound record signature := by
  have hcount : fallbackCount device m record = fallbackCount device m' record :=
    fallbackCount_congr fun l hl => h l (Or.inl hl)
  unfold indirectCommands
  rw [← hcount]
  cases hsome : fallbackCount device m record with
  | none => rfl
  | some count =>
    refine indirectCommandsFrom_congr fun i hi l hl => h l (Or.inr ⟨count, i, hsome, ?_, hl⟩)
    omega

/-! ## A replay on another memory -/

/-- The state on another memory, with a front of the chunk. -/
def reframe (front : List (Emitted Payload)) (m : Memory) (state : ReplayState Payload) :
    ReplayState Payload :=
  { state with memory := m, chunk := front ++ state.chunk }

variable {front : List (Emitted Payload)}

/-- What is emitted does not depend on what the chunk holds. -/
theorem emit_reframe (emitted : Emitted Payload) :
    emit (reframe front m state) emitted = reframe front m (emit state emitted) := by
  unfold emit reframe
  dsimp only
  rw [List.append_assoc]

theorem flush_reframe :
    flushGraphicsPassBatch (reframe front m state) =
      reframe front m (flushGraphicsPassBatch state) := by
  unfold flushGraphicsPassBatch
  rw [emit_reframe]
  show (if hasPendingGraphicsPass state then _ else _) = _
  split <;> rfl

theorem queue_reframe (attachments : RenderPassAttachments) (argumentBufferSize : Nat)
    (command : EncodeDraw) :
    queueGraphicsPassCommand (reframe front m state) attachments argumentBufferSize command =
      reframe front m (queueGraphicsPassCommand state attachments argumentBufferSize command) := by
  unfold queueGraphicsPassCommand
  rw [flush_reframe]
  dsimp only
  have hstate : (if (reframe front m state).batch.active &&
      !attachmentsMatch (reframe front m state).batch.attachments attachments then
        reframe front m (flushGraphicsPassBatch state) else reframe front m state) =
      reframe front m (if state.batch.active &&
        !attachmentsMatch state.batch.attachments attachments then
          flushGraphicsPassBatch state else state) := by
    show (if state.batch.active && !attachmentsMatch state.batch.attachments attachments then _
      else _) = _
    split <;> rfl
  rw [hstate]
  rfl

/-- A draw does not depend on what the chunk holds, nor on memory. -/
theorem replayDraw_reframe (draw : Option GraphicsDraw) :
    replayDraw batching (reframe front m state) draw =
      reframe front m (replayDraw batching state draw) := by
  cases draw with
  | none => rfl
  | some draw =>
    unfold replayDraw emitSingleGraphicsPass
    dsimp only
    rw [queue_reframe, flush_reframe, emit_reframe]
    split <;> rfl

theorem replayIndirectDraw_reframe (source : IndirectSource) (draw : Option GraphicsDraw) :
    replayIndirectDraw batching (reframe front m state) source draw =
      reframe front m (replayIndirectDraw batching state source draw) := by
  cases draw with
  | none => rfl
  | some draw =>
    unfold replayIndirectDraw
    dsimp only
    rw [replayDraw_reframe, flush_reframe, emit_reframe]
    split <;> rfl

theorem replayDispatch_reframe (command : Option EncodeDispatch) :
    replayDispatch (reframe front m state) command =
      reframe front m (replayDispatch state command) := by
  cases command with
  | none => rfl
  | some command => exact emit_reframe _

theorem replayDirectCommand_reframe (operation : DirectIndirectOperation)
    (source : IndirectSource) :
    replayDirectCommand device batching operation (reframe front m state) source =
      reframe front m (replayDirectCommand device batching operation state source) := by
  unfold replayDirectCommand
  cases operation with
  | draw => exact replayIndirectDraw_reframe source _
  | drawIndexed => exact replayIndirectDraw_reframe source _
  | dispatch =>
    dsimp only
    rw [flush_reframe]
    exact replayDispatch_reframe _

/-- An indirect record on the GPU does not depend on what the chunk holds, nor on memory. -/
theorem replayExecuteIndirectDirect_reframe (record : ExecuteIndirectRecord)
    (signature : CommandSignature) (operation : DirectIndirectOperation) :
    replayExecuteIndirectDirect device batching (reframe front m state) record signature operation =
      reframe front m
        (replayExecuteIndirectDirect device batching state record signature operation) := by
  unfold replayExecuteIndirectDirect
  cases directSource device record signature
      ((signature.arguments.head?.map indirectArgumentByteSize).getD 0) with
  | none => rfl
  | some source =>
    dsimp only
    generalize (List.range record.maxCommandCount).map source = sources
    induction sources generalizing state with
    | nil => rfl
    | cons source sources ih =>
      rw [List.foldl_cons, List.foldl_cons, replayDirectCommand_reframe, ih]

/-- The memory and the predication of a state, which the commands of the CPU fallback keep. -/
structure SamePredication (device : Device) (state state' : ReplayState Payload) : Prop where
  memory : state'.memory = state.memory
  bytes : predicationBytes device state'.bound = predicationBytes device state.bound

theorem flush_bound (state : ReplayState Payload) :
    (flushGraphicsPassBatch state).bound = state.bound ∧
      (flushGraphicsPassBatch state).memory = state.memory := by
  unfold flushGraphicsPassBatch
  split <;> exact ⟨rfl, rfl⟩

theorem replayDraw_bound (batching : Bool) (state : ReplayState Payload)
    (draw : Option GraphicsDraw) :
    (replayDraw batching state draw).bound = state.bound ∧
      (replayDraw batching state draw).memory = state.memory := by
  cases draw with
  | none => exact ⟨rfl, rfl⟩
  | some draw =>
    unfold replayDraw
    dsimp only
    split
    · unfold queueGraphicsPassCommand
      dsimp only
      split
      · exact flush_bound state
      · exact ⟨rfl, rfl⟩
    · exact flush_bound state

theorem predicationBytes_storeRootConstants (record : RootConstantsRecord) :
    predicationBytes device (storeRootConstants bound record) = predicationBytes device bound := by
  unfold storeRootConstants
  split <;> rfl

theorem predicationBytes_storeRootDescriptor (record : RootDescriptorRecord) :
    predicationBytes device (storeRootDescriptor bound record) = predicationBytes device bound := by
  unfold storeRootDescriptor
  split <;> rfl

/-- No command of the fallback changes the predicate's place. -/
theorem samePredication_replayIndirectCommand (command : IndirectCommand) :
    SamePredication device state (replayIndirectCommand device batching state command) := by
  cases command with
  | draw record =>
    obtain ⟨hbound, hmemory⟩ := replayDraw_bound batching state
      (drawInstanced device state.memory state.bound record)
    exact ⟨hmemory, congrArg _ hbound⟩
  | drawIndexed record =>
    obtain ⟨hbound, hmemory⟩ := replayDraw_bound batching state
      (drawIndexedInstanced device state.memory state.bound record)
    exact ⟨hmemory, congrArg _ hbound⟩
  | dispatch record =>
    unfold replayIndirectCommand replayDispatch
    dsimp only
    split <;> exact ⟨rfl, rfl⟩
  | vertexBuffer slot view => exact ⟨rfl, rfl⟩
  | indexBuffer view => exact ⟨rfl, rfl⟩
  | rootConstants record => exact ⟨rfl, predicationBytes_storeRootConstants record⟩
  | rootDescriptor record => exact ⟨rfl, predicationBytes_storeRootDescriptor record⟩

theorem replayIndirectCommand_reframe
    (h : ∀ l ∈ predicationBytes device state.bound, state.memory l = m l)
    (command : IndirectCommand) :
    replayIndirectCommand device batching (reframe front m state) command =
      reframe front m (replayIndirectCommand device batching state command) := by
  have hallows : predicationAllows device state.memory state.bound =
      predicationAllows device m state.bound := predicationAllows_congr h
  cases command with
  | draw record =>
    unfold replayIndirectCommand drawInstanced
    rw [hallows]
    exact replayDraw_reframe _
  | drawIndexed record =>
    unfold replayIndirectCommand drawIndexedInstanced
    rw [hallows]
    exact replayDraw_reframe _
  | dispatch record =>
    unfold replayIndirectCommand dispatch
    rw [hallows]
    exact replayDispatch_reframe _
  | vertexBuffer slot view => rfl
  | indexBuffer view => rfl
  | rootConstants record => rfl
  | rootDescriptor record => rfl

/-- The commands of the fallback do not depend on bytes other than the predicate's. -/
theorem replayIndirectCommands_reframe
    (h : ∀ l ∈ predicationBytes device state.bound, state.memory l = m l)
    (commands : List IndirectCommand) :
    commands.foldl (replayIndirectCommand device batching) (reframe front m state) =
      reframe front m (commands.foldl (replayIndirectCommand device batching) state) := by
  induction commands generalizing state with
  | nil => rfl
  | cons command commands ih =>
    obtain ⟨hmemory, hbytes⟩ : SamePredication device state
        (replayIndirectCommand device batching state command) :=
      samePredication_replayIndirectCommand command
    rw [List.foldl_cons, List.foldl_cons, replayIndirectCommand_reframe h]
    refine ih fun l hl => ?_
    rw [hmemory]
    exact h l (hbytes ▸ hl)

/-- The immediate writes of a record. -/
def immediate (device : Device) (record : Record Payload) (m : Memory) : Memory :=
  match record with
  | .writeBufferImmediate parameters => parameters.foldl (writeImmediate device) m
  | _ => m

/-- Two replays of a record do the same where their memories agree on what it reads. -/
theorem replayRecord_reframe {record : Record Payload}
    (h : ∀ l ∈ cpuReads device state.memory state.bound record, state.memory l = m l) :
    replayRecord device batching (reframe front m state) record =
      reframe front (immediate device record m) (replayRecord device batching state record) := by
  cases record with
  | transfer kind payload =>
    show emit (flushGraphicsPassBatch (reframe front m state)) _ = _
    rw [flush_reframe, emit_reframe]
    rfl
  | drawInstanced record =>
    have hallows := predicationAllows_congr h
    unfold replayRecord drawInstanced
    rw [hallows]
    exact replayDraw_reframe _
  | drawIndexedInstanced record =>
    have hallows := predicationAllows_congr h
    unfold replayRecord drawIndexedInstanced
    rw [hallows]
    exact replayDraw_reframe _
  | dispatch record =>
    have hallows := predicationAllows_congr h
    obtain ⟨hbound, hmemory⟩ := flush_bound state
    unfold replayRecord
    dsimp only
    rw [flush_reframe, replayDispatch_reframe]
    refine congrArg (reframe front m) (congrArg (replayDispatch _) ?_)
    show dispatch device m (flushGraphicsPassBatch state).bound record =
      dispatch device (flushGraphicsPassBatch state).memory (flushGraphicsPassBatch state).bound
        record
    unfold dispatch
    rw [hbound, hmemory, hallows]
  | executeIndirect record =>
    have hpredication : ∀ l ∈ predicationBytes device state.bound, state.memory l = m l :=
      fun l hl => h l (Or.inl hl)
    have hfallback : ∀ l ∈ fallbackBytes device state.memory record
        (indirectPath device state.memory state.bound record), state.memory l = m l :=
      fun l hl => h l (Or.inr hl)
    show replayExecuteIndirect device batching (reframe front m state) record =
      reframe front m (replayExecuteIndirect device batching state record)
    unfold replayExecuteIndirect
    rw [show indirectPath device (reframe front m state).memory
      (reframe front m state).bound record =
      indirectPath device state.memory state.bound record from
        (indirectPath_congr hpredication record).symm]
    cases hpath : indirectPath device state.memory state.bound record with
    | skipped => rfl
    | direct signature operation =>
      exact replayExecuteIndirectDirect_reframe record signature operation
    | cpuFallback signature =>
      rw [hpath] at hfallback
      dsimp only
      rw [← replayIndirectCommands_reframe hpredication, indirectCommands_congr hfallback]
      rfl
  | writeBufferImmediate parameters =>
    unfold replayRecord
    dsimp only
    rw [flush_reframe]
    rfl
  | descriptorHeaps heaps =>
    show setBound device (flushGraphicsPassBatch (reframe front m state)) _ = _
    rw [flush_reframe]
    rfl
  | rootSignature compute rootSignature =>
    show setBound device (flushGraphicsPassBatch (reframe front m state)) _ = _
    rw [flush_reframe]
    rfl
  | predication record =>
    show setBound device (flushGraphicsPassBatch (reframe front m state)) _ = _
    rw [flush_reframe]
    rfl
  | _ => rfl

/-! ## Queries -/

/-- A number as eight bytes. -/
def encodeU64 (value : Nat) : List Byte :=
  writeU32 (BitVec.ofNat 32 value) ++ writeU32 (BitVec.ofNat 32 (value / 2 ^ 32))

/-- `D3D12_QUERY_HEAP_TYPE`. -/
inductive QueryHeapType where
  | occlusion
  | timestamp
  | pipelineStatistics
  | soStatistics
  | other
deriving DecidableEq

/-- `D3D12_QUERY_TYPE`. -/
inductive QueryType where
  | occlusion
  | binaryOcclusion
  | timestamp
  | pipelineStatistics
  | soStatistics
  | other
deriving DecidableEq

/-- `QueryData`; the value of a query object that has been issued. -/
structure QueryData where
  began : Bool := false
  valid : Bool := false
  visibility : Option Nat := none
  timestamp : Option Nat := none

/-- A query heap: its type and its queries. -/
structure QueryHeap where
  type : QueryHeapType
  queries : List QueryData

/-- The query heaps and the next value of `NextTimestampQueryValue`. -/
structure QueryState where
  heaps : ObjectId → Option QueryHeap
  nextTimestamp : Nat := 0

/-- `BeginQuery` or `EndQuery` and its arguments. -/
structure QueryRecord where
  heap : Option ObjectId
  type : QueryType
  index : Nat

/-- `ResolveQueryData` and its arguments. -/
structure ResolveQueryDataRecord where
  heap : Option ObjectId
  type : QueryType
  startIndex : Nat
  queryCount : Nat
  dstBuffer : Option ObjectId
  dstBufferOffset : Nat

namespace QueryHeap

/-- `ValidateAccess`: the index is in range and the type is one of the heap's. -/
def validateAccess (heap : QueryHeap) (type : QueryType) (index : Nat) : Bool :=
  if index ≥ heap.queries.length then false
  else
    match heap.type with
    | .occlusion => decide (type = .occlusion) || decide (type = .binaryOcclusion)
    | .timestamp => decide (type = .timestamp)
    | .pipelineStatistics => decide (type = .pipelineStatistics)
    | .soStatistics => decide (type = .soStatistics)
    | .other => false

/-- Changes one query of the heap. -/
def modify (heap : QueryHeap) (index : Nat) (f : QueryData → QueryData) : QueryHeap :=
  { heap with queries := heap.queries.modify index f }

/-- A new visibility query counts nothing yet. -/
def beginVisibility (heap : QueryHeap) (type : QueryType) (index : Nat) : QueryHeap :=
  if heap.validateAccess type index && decide (heap.type = .occlusion) then
    heap.modify index fun query =>
      { query with visibility := some 0, began := true, valid := false }
  else heap

/-- The query ends with one visible sample. -/
def endVisibility (heap : QueryHeap) (type : QueryType) (index : Nat) : QueryHeap :=
  if heap.validateAccess type index && decide (heap.type = .occlusion) then
    heap.modify index fun query =>
      if !query.began || query.visibility.isNone then query
      else { query with began := false, valid := true, visibility := some 1 }
  else heap

/-- `EndTimestamp` accepts the query; only then it asks for the next value. -/
def takesTimestamp (heap : QueryHeap) (type : QueryType) (index : Nat) : Bool :=
  heap.validateAccess type index && decide (heap.type = .timestamp) && decide (type = .timestamp)

/-- `EndTimestamp`: the query holds the timestamp. -/
def endTimestamp (heap : QueryHeap) (type : QueryType) (index value : Nat) : QueryHeap :=
  if heap.takesTimestamp type index then
    heap.modify index fun query => { query with timestamp := some value, valid := true }
  else heap

/-- The heap counts pipeline or stream-out statistics. -/
def statisticsHeap (heap : QueryHeap) : Bool :=
  decide (heap.type = .pipelineStatistics) || decide (heap.type = .soStatistics)

/-- `BeginStatistics`: the query has begun and has no result. -/
def beginStatistics (heap : QueryHeap) (type : QueryType) (index : Nat) : QueryHeap :=
  if heap.validateAccess type index && heap.statisticsHeap then
    heap.modify index fun query => { query with began := true, valid := false }
  else heap

/-- `EndStatistics`: only a query that has begun gets a result. -/
def endStatistics (heap : QueryHeap) (type : QueryType) (index : Nat) : QueryHeap :=
  if heap.validateAccess type index && heap.statisticsHeap then
    heap.modify index fun query =>
      if !query.began then query else { query with began := false, valid := true }
  else heap

/-- The bytes of one resolved query, none for an unknown type. -/
def resolveOne (type : QueryType) (query : QueryData) : List Byte :=
  match type with
  | .occlusion => encodeU64 (if query.valid then query.visibility.getD 0 else 0)
  | .binaryOcclusion => encodeU64 (if query.valid then min 1 (query.visibility.getD 0) else 0)
  | .timestamp => encodeU64 (if query.valid then query.timestamp.getD 0 else 0)
  | .pipelineStatistics => List.replicate 88 0
  | .soStatistics => List.replicate 16 0
  | .other => []

/-- `Resolve`; `none` where it fails. -/
def resolve (heap : QueryHeap) (type : QueryType) (startIndex queryCount : Nat) :
    Option (List Byte) :=
  if type = .other then none
  else if queryCount = 0 then some []
  else if startIndex ≥ heap.queries.length ∨ queryCount > heap.queries.length - startIndex then none
  else some (((heap.queries.drop startIndex).take queryCount).flatMap (resolveOne type))

end QueryHeap

/-- The query counts statistics. -/
def QueryType.isStatistics (type : QueryType) : Bool :=
  decide (type = .pipelineStatistics) || decide (type = .soStatistics)

/-- The heaps with another one. -/
def QueryState.setHeap (queries : QueryState) (id : ObjectId) (heap : QueryHeap) : QueryState :=
  { queries with heaps := insert queries.heaps id (some heap) }

/-- `ReplayBeginQuery`. -/
def replayBeginQuery (queries : QueryState) (record : QueryRecord) : QueryState :=
  match record.heap with
  | none => queries
  | some id =>
    match queries.heaps id with
    | none => queries
    | some heap =>
      if record.type.isStatistics then
        queries.setHeap id (heap.beginStatistics record.type record.index)
      else queries.setHeap id (heap.beginVisibility record.type record.index)

/-- `ReplayEndQuery`: a timestamp that is accepted takes its value from the device. -/
def replayEndQuery (queries : QueryState) (record : QueryRecord) : QueryState :=
  match record.heap with
  | none => queries
  | some id =>
    match queries.heaps id with
    | none => queries
    | some heap =>
      if record.type = .timestamp then
        if heap.takesTimestamp record.type record.index then
          let resolved := heap.endTimestamp record.type record.index queries.nextTimestamp
          { queries.setHeap id resolved with nextTimestamp := queries.nextTimestamp + 1 }
        else queries
      else if record.type.isStatistics then
        queries.setHeap id (heap.endStatistics record.type record.index)
      else queries.setHeap id (heap.endVisibility record.type record.index)

/-- The payload of the records that are replayed from it. -/
inductive Transfer (Copy : Type) where
  | copy (copy : Copy)
  | query (record : QueryRecord)
  | resolve (record : ResolveQueryDataRecord)

variable {Copy : Type}

/-- Queries begin and end at the replay of their records. -/
def queryStep (queries : QueryState) : Record (Transfer Copy) → QueryState
  | .transfer .beginQuery (.query record) => replayBeginQuery queries record
  | .transfer .endQuery (.query record) => replayEndQuery queries record
  | _ => queries

/-- What a resolve writes, and where. -/
def resolveData (device : Device) (queries : QueryState) (record : ResolveQueryDataRecord) :
    Option (Location × List Byte) := do
  let heap ← record.heap.bind queries.heaps
  let data ← heap.resolve record.type record.startIndex record.queryCount
  let dst ← getResource device record.dstBuffer
  let allocation ← dst.allocation
  if validateBufferRange dst record.dstBufferOffset data.length then
    return ((allocation, dst.heapOffset + record.dstBufferOffset), data)
  else none

/-! ## The commands that write from the CPU -/

/-- `updateContents` as a command. -/
def updateCommand (place : Location) (data : List Byte) : Footprint.Command Location Byte where
  reads := ∅
  writes := byteRange place data.length
  run m := updateContents m place.1 place.2 data
  frame _ _ hl := if_neg hl
  depends _ _ _ _ hl := (if_pos hl).trans (if_pos hl).symm

/-- The command of a closure that does nothing to memory. -/
def skipCommand : Footprint.Command Location Byte where
  reads := ∅
  writes := ∅
  run m := m
  frame _ _ _ := rfl
  depends _ _ _ _ hl := absurd hl (Set.notMem_empty _)

/-- The readback of a resolve; one that was not valid at its record is not valid here. -/
def resolveCommand (device : Device) (queries : QueryState) (record : ResolveQueryDataRecord) :
    Footprint.Command Location Byte :=
  match resolveData device queries record with
  | none => skipCommand
  | some (place, data) => updateCommand place data

/-- Where an immediate write goes. -/
def immediatePlace (device : Device) (parameter : WriteBufferImmediateParameter) :
    Option Location := do
  let (resource, offset) ← device.bufferAt parameter.dest
  let allocation ← resource.allocation
  return (allocation, resource.heapOffset + offset)

/-- One immediate write as a command. -/
def immediateCommand (device : Device) (parameter : WriteBufferImmediateParameter) :
    Footprint.Command Location Byte :=
  match immediatePlace device parameter with
  | none => skipCommand
  | some place => updateCommand place (writeU32 parameter.value)

/-- The immediate write as a command on memory. -/
theorem immediateCommand_run (parameter : WriteBufferImmediateParameter) (m : Memory) :
    (immediateCommand device parameter).run m = writeImmediate device m parameter := by
  unfold immediateCommand immediatePlace writeImmediate
  cases device.bufferAt parameter.dest with
  | none => rfl
  | some pair =>
    obtain ⟨resource, offset⟩ := pair
    simp only [Option.bind_eq_bind, Option.bind_some]
    cases resource.allocation <;> rfl

/-! ## The queue -/

/-- What is left of a record in a chunk. -/
inductive Item (Copy : Type) where
  | command (op : EncoderOp (Transfer Copy))
  | readback (record : ResolveQueryDataRecord)

/-- A query leaves nothing. -/
def itemOf : EncoderOp (Transfer Copy) → Option (Item Copy)
  | .transfer .beginQuery (.query _) => none
  | .transfer .endQuery (.query _) => none
  | .transfer .resolveQueryData (.resolve record) => some (.readback record)
  | op => some (.command op)

/-- The item is a readback of the CPU. -/
def Item.isReadback : Item Copy → Bool
  | .command _ => false
  | .readback _ => true

/-- What the commands of the GPU do to the memory. -/
abbrev Gpu (Copy : Type) := EncoderOp (Transfer Copy) → Footprint.Command Location Byte

variable (device : Device) (gpu : Gpu Copy)

/-- The item with its command on memory; a readback writes what the queries hold. -/
def Item.entry (queries : QueryState) : Item Copy → Entry (EncoderOp (Transfer Copy)) Location Byte
  | .command op => ⟨some op, gpu op⟩
  | .readback record => ⟨none, resolveCommand device queries record⟩

/-- The chunk and the memory are in the state of the replay. A committed chunk is what is left of
it: the commands of the GPU, and the readbacks for its completion, in the order of their records. -/
structure System (Copy : Type) where
  replay : ReplayState (Transfer Copy)
  queries : QueryState
  committed : List (List (Item Copy)) := []
  log : List (Observation (EncoderOp (Transfer Copy)) Location Byte) := []

/-- The beginning of a command list, and its records. -/
inductive Event (Copy : Type) where
  | begin
  | record (record : Record (Transfer Copy))

/-- The commands and readbacks of a stream, in order. -/
def itemsOf (stream : List (EncoderOp (Transfer Copy))) : List (Item Copy) :=
  stream.filterMap itemOf

/-- Everything that is not done: the committed chunks, the chunk, and the draws that wait. -/
def System.outstanding (system : System Copy) : List (Item Copy) :=
  system.committed.flatten ++ itemsOf (system.replay.stream ++ system.replay.pending)

/-- A step of the system, with the event that it replays. The GPU executes its commands in order;
the readbacks of a chunk follow when it has no commands left, after those of the chunks before. -/
inductive Step : System Copy → Option (Event Copy) → System Copy → Prop
  | begin {system : System Copy} (hflushed : hasPendingGraphicsPass system.replay = false) :
    Step system (some .begin) { system with replay := { system.replay with bound := {} } }
  | record {system : System Copy} (record : Record (Transfer Copy)) :
    Step system (some (.record record))
      { system with
        replay := replayRecord device true system.replay record
        queries := queryStep system.queries record }
  | finish {system : System Copy} :
    Step system none { system with replay := flushGraphicsPassBatch system.replay }
  | commit {system : System Copy} (hflushed : hasPendingGraphicsPass system.replay = false) :
    Step system none
      { system with
        replay := { system.replay with chunk := [] }
        committed := system.committed ++ [itemsOf system.replay.stream] }
  | execute {system : System Copy} {earlier later : List (List (Item Copy))}
      {front back : List (Item Copy)} {op : EncoderOp (Transfer Copy)}
      (hcommitted : system.committed = earlier ++ (front ++ .command op :: back) :: later)
      (hearlier : ∀ items ∈ earlier, ∀ item ∈ items, item.isReadback = true)
      (hfront : ∀ item ∈ front, item.isReadback = true) :
    Step system none
      { system with
        replay := { system.replay with memory := (gpu op).run system.replay.memory }
        committed := earlier ++ (front ++ back) :: later
        log := system.log ++ [⟨op, (gpu op).observed system.replay.memory⟩] }
  | readback {system : System Copy} {record : ResolveQueryDataRecord} {rest : List (Item Copy)}
      {later : List (List (Item Copy))}
      (hcommitted : system.committed = (.readback record :: rest) :: later)
      (hrest : ∀ item ∈ rest, item.isReadback = true) :
    Step system none
      { system with
        replay := { system.replay with
          memory := (resolveCommand device system.queries record).run system.replay.memory }
        committed := rest :: later }
  | retire {system : System Copy} {later : List (List (Item Copy))}
      (hcommitted : system.committed = [] :: later) :
    Step system none { system with committed := later }

/-- A run whose steps meet a condition, with the events that it replays. -/
inductive Run (condition : System Copy → Event Copy → Prop) (memory : Memory)
    (queries : QueryState) :
    List (Event Copy) → System Copy → Prop
  | start : Run condition memory queries [] { replay := { memory := memory }, queries := queries }
  | step {events : List (Event Copy)} {system system' : System Copy} {event : Option (Event Copy)}
      (hrun : Run condition memory queries events system)
      (hstep : Step device gpu system event system')
      (hcondition : ∀ e ∈ event, condition system e) :
    Run condition memory queries (events ++ event.toList) system'

/-! ## The reference -/

/-- The reference executor: the state of the records, the memory and the queries, and what was
executed. -/
structure Reference (Copy : Type) where
  replay : ReplayState (Transfer Copy)
  queries : QueryState
  log : List (Observation (EncoderOp (Transfer Copy)) Location Byte) := []

/-- A record is executed at once, its draws one by one. -/
noncomputable def referenceStep (reference : Reference Copy) : Event Copy → Reference Copy
  | .begin => { reference with replay := { reference.replay with bound := {} } }
  | .record record =>
    let replayed := replayRecord device false reference.replay record
    let queries := queryStep reference.queries record
    let entries := (itemsOf replayed.stream).map (Item.entry device gpu queries)
    { replay := { replayed with memory := execute entries replayed.memory, chunk := [] }
      queries := queries
      log := reference.log ++ observe entries replayed.memory }

/-- The reference over a run of events. -/
noncomputable def referenceRun (memory : Memory) (queries : QueryState)
    (events : List (Event Copy)) : Reference Copy :=
  events.foldl (referenceStep device gpu) { replay := { memory := memory }, queries := queries }

/-! ## The condition -/

/-- What is outstanding, as commands. -/
def System.entries (system : System Copy) :
    List (Entry (EncoderOp (Transfer Copy)) Location Byte) :=
  system.outstanding.map (Item.entry device gpu system.queries)

/-- What a record leaves in a chunk. -/
def System.emitted (system : System Copy) (record : Record (Transfer Copy)) : List (Item Copy) :=
  itemsOf (replayRecord device false { system.replay with batch := {}, chunk := [] } record).stream

/-- A record that is replayed now is apart from the work that is outstanding: that writes nothing
that the record reads on the CPU, and does not touch what the record writes there; the record leaves
alone the queries that it still resolves, and has no command that touches what a resolve still
writes. -/
structure RecordApart (system : System Copy) (record : Record (Transfer Copy)) : Prop where
  inOrder : RecordInOrder device system.replay record
  reads : ∀ entry ∈ system.entries device gpu, Disjoint entry.command.writes
    (cpuReads device system.replay.memory system.replay.bound record)
  writes : ∀ parameters, record = .writeBufferImmediate parameters → ∀ parameter ∈ parameters,
    ∀ entry ∈ system.entries device gpu, (immediateCommand device parameter).Apart entry.command
  queries : ∀ resolve, .readback resolve ∈ system.outstanding →
    resolveCommand device (queryStep system.queries record) resolve =
      resolveCommand device system.queries resolve
  commands : ∀ resolve, .readback resolve ∈ system.outstanding ++ system.emitted device record →
    ∀ op, .command op ∈ system.emitted device record →
      (resolveCommand device (queryStep system.queries record) resolve).Apart (gpu op)

/-- The condition of a step. -/
def EventApart (system : System Copy) : Event Copy → Prop
  | .begin => True
  | .record record => RecordApart device gpu system record

/-! ## The invariant -/

/-- A readback is apart from the commands behind it. -/
def ReadbackApart (queries : QueryState) (x y : Item Copy) : Prop :=
  ∀ resolve op, x = .readback resolve → y = .command op →
    (resolveCommand device queries resolve).Apart (gpu op)

/-- The reference is what the system becomes when the outstanding work is done in order. -/
structure Inv (system : System Copy) (reference : Reference Copy) : Prop where
  simulates : ∃ chunk, Simulates system.replay
    { reference.replay with memory := system.replay.memory, chunk := chunk }
  batch : reference.replay.batch = {}
  chunk : reference.replay.chunk = []
  queries : reference.queries = system.queries
  memory : reference.replay.memory = execute (system.entries device gpu) system.replay.memory
  log : reference.log = system.log ++ observe (system.entries device gpu) system.replay.memory
  apart : system.outstanding.Pairwise (ReadbackApart device gpu system.queries)

variable {device gpu} {system system' : System Copy} {reference : Reference Copy}
  {queries : QueryState}

/-- Without batching there is nothing to flush. -/
theorem flush_batch (h : state.batch = {}) : flushGraphicsPassBatch state = state := by
  unfold flushGraphicsPassBatch hasPendingGraphicsPass
  rw [h]
  rfl

/-- Without batching no draw waits. -/
theorem replayDraw_batch (h : state.batch = {}) (draw : Option GraphicsDraw) :
    (replayDraw false state draw).batch = {} := by
  cases draw with
  | none => exact h
  | some draw =>
    show (flushGraphicsPassBatch state).batch = {}
    rw [flush_batch h]
    exact h

theorem replayIndirectDraw_batch (h : state.batch = {}) (source : IndirectSource)
    (draw : Option GraphicsDraw) : (replayIndirectDraw false state source draw).batch = {} := by
  cases draw with
  | none => exact h
  | some draw =>
    unfold replayIndirectDraw
    dsimp only
    split
    · show (flushGraphicsPassBatch state).batch = {}
      rw [flush_batch h]
      exact h
    · exact replayDraw_batch h _

theorem replayDispatch_batch (h : state.batch = {}) (command : Option EncodeDispatch) :
    (replayDispatch state command).batch = {} := by
  cases command with
  | none => exact h
  | some command => exact h

theorem replayDirectCommand_batch (h : state.batch = {}) (operation : DirectIndirectOperation)
    (source : IndirectSource) :
    (replayDirectCommand device false operation state source).batch = {} := by
  unfold replayDirectCommand
  cases operation with
  | draw => exact replayIndirectDraw_batch h _ _
  | drawIndexed => exact replayIndirectDraw_batch h _ _
  | dispatch =>
    dsimp only
    rw [flush_batch h]
    exact replayDispatch_batch h _

theorem replayIndirectCommand_batch (h : state.batch = {}) (command : IndirectCommand) :
    (replayIndirectCommand device false state command).batch = {} := by
  cases command with
  | draw record => exact replayDraw_batch h _
  | drawIndexed record => exact replayDraw_batch h _
  | dispatch record => exact replayDispatch_batch h _
  | vertexBuffer slot view => exact h
  | indexBuffer view => exact h
  | rootConstants record => exact h
  | rootDescriptor record => exact h

theorem foldl_batch {α : Type} {f : ReplayState Payload → α → ReplayState Payload}
    (hstep : ∀ {state}, state.batch = {} → ∀ x, (f state x).batch = {}) (h : state.batch = {})
    (xs : List α) : (xs.foldl f state).batch = {} := by
  induction xs generalizing state with
  | nil => exact h
  | cons x xs ih => exact ih (hstep h x)

/-- A replay without batching has no batch. -/
theorem replayRecord_batch (h : state.batch = {}) (record : Record Payload) :
    (replayRecord device false state record).batch = {} := by
  have hflush : (flushGraphicsPassBatch state).batch = {} := by
    rw [flush_batch h]
    exact h
  cases record with
  | drawInstanced record => exact replayDraw_batch h _
  | drawIndexedInstanced record => exact replayDraw_batch h _
  | dispatch record => exact replayDispatch_batch hflush _
  | executeIndirect record =>
    show (replayExecuteIndirect device false state record).batch = {}
    unfold replayExecuteIndirect
    cases indirectPath device state.memory state.bound record with
    | skipped => exact h
    | direct signature operation =>
      unfold replayExecuteIndirectDirect
      dsimp only
      split
      · exact h
      · exact foldl_batch (fun h => replayDirectCommand_batch h operation) h _
    | cpuFallback signature => exact foldl_batch replayIndirectCommand_batch h _
  | transfer kind payload => exact hflush
  | descriptorHeaps heaps => exact hflush
  | rootSignature compute rootSignature => exact hflush
  | predication record => exact hflush
  | writeBufferImmediate parameters => exact hflush
  | _ => exact h

/-- The commands of two streams one after the other. -/
theorem itemsOf_append (xs ys : List (EncoderOp (Transfer Copy))) :
    itemsOf (xs ++ ys) = itemsOf xs ++ itemsOf ys :=
  List.filterMap_append

/-- The outstanding work on the side without batching. -/
theorem outstanding_eq {u : ReplayState (Transfer Copy)} (h : Simulates system.replay u) :
    system.outstanding = system.committed.flatten ++ itemsOf u.stream := by
  unfold System.outstanding
  rw [h.stream]

/-- The stream behind what the chunk holds. -/
theorem stream_reframe :
    (reframe front m state).stream = front.flatMap Emitted.ops ++ state.stream :=
  List.flatMap_append

/-- The immediate writes of a record go before or behind work that they are apart from. -/
theorem execute_immediate {record : Record Payload}
    {entries : List (Entry (EncoderOp (Transfer Copy)) Location Byte)}
    (h : ∀ parameters, record = .writeBufferImmediate parameters → ∀ parameter ∈ parameters,
      ∀ entry ∈ entries, (immediateCommand device parameter).Apart entry.command) (m : Memory) :
    execute entries (immediate device record m) = immediate device record (execute entries m) ∧
      observe entries (immediate device record m) = observe entries m := by
  cases record with
  | writeBufferImmediate parameters =>
    have hparameters := h parameters rfl
    show execute entries (parameters.foldl (writeImmediate device) m) =
        parameters.foldl (writeImmediate device) (execute entries m) ∧
      observe entries (parameters.foldl (writeImmediate device) m) = observe entries m
    clear h
    induction parameters generalizing m with
    | nil => exact ⟨rfl, rfl⟩
    | cons parameter parameters ih =>
      rw [List.forall_mem_cons] at hparameters
      obtain ⟨hexecute, hobserve⟩ := ih (writeImmediate device m parameter) hparameters.2
      rw [List.foldl_cons, List.foldl_cons, hexecute, hobserve, ← immediateCommand_run,
        execute_write hparameters.1, observe_write hparameters.1, immediateCommand_run]
      exact ⟨rfl, rfl⟩
  | _ => exact ⟨rfl, rfl⟩

/-- The entries of items are decided by the queries that they resolve. -/
theorem entry_congr {queries queries' : QueryState} {items : List (Item Copy)}
    (h : ∀ resolve, .readback resolve ∈ items →
      resolveCommand device queries' resolve = resolveCommand device queries resolve) :
    items.map (Item.entry device gpu queries') = items.map (Item.entry device gpu queries) := by
  refine List.map_congr_left fun item hmem => ?_
  cases item with
  | command op => rfl
  | readback resolve => exact congrArg (Entry.mk none) (h resolve hmem)

/-- A record of the system and of the reference. -/
theorem Inv.record (h : Inv device gpu system reference) {record : Record (Transfer Copy)}
    (hapart : RecordApart device gpu system record) :
    Inv device gpu
      { system with
        replay := replayRecord device true system.replay record
        queries := queryStep system.queries record }
      (referenceStep device gpu reference (.record record)) := by
  obtain ⟨chunk, hsimulates⟩ := h.simulates
  -- the replay without batching, on the memory of the system and with nothing in the chunk
  generalize hfresh : ({ reference.replay with memory := system.replay.memory } :
    ReplayState (Transfer Copy)) = fresh
  have hchunk : fresh.chunk = [] := by rw [← hfresh]; exact h.chunk
  have hbound : fresh.bound = system.replay.bound := by rw [← hfresh]; exact hsimulates.bound.symm
  have hmemory : fresh.memory = system.replay.memory := by rw [← hfresh]
  have hbatch : fresh.batch = {} := by rw [← hfresh]; exact h.batch
  have hreads : ∀ l ∈ cpuReads device fresh.memory fresh.bound record,
      fresh.memory l = reference.replay.memory l := fun l hl => by
    rw [hmemory, h.memory]
    rw [hmemory, hbound] at hl
    exact (execute_of_not_mem fun entry hmem hwrite =>
      Set.disjoint_left.mp (hapart.reads entry hmem) hwrite hl).symm
  generalize hreplayed : replayRecord device false fresh record = replayed
  have hghost : ({ reference.replay with memory := system.replay.memory, chunk := chunk } :
      ReplayState (Transfer Copy)) = reframe chunk system.replay.memory fresh := by
    rw [← hfresh]
    unfold reframe
    dsimp only
    rw [h.chunk, List.append_nil]
  have hreference : reference.replay = reframe [] reference.replay.memory fresh := by
    rw [← hfresh]
    rfl
  have hleft : replayRecord device false (reframe chunk system.replay.memory fresh) record =
      reframe chunk (immediate device record system.replay.memory) replayed := by
    rw [← hreplayed]
    exact replayRecord_reframe fun l _ => congrFun hmemory l
  have hright : replayRecord device false reference.replay record =
      reframe [] (immediate device record reference.replay.memory) replayed := by
    rw [← hreplayed]
    conv_lhs => rw [hreference]
    exact replayRecord_reframe hreads
  have hstep : Simulates (replayRecord device true system.replay record) _ :=
    hsimulates.replayRecord.1 hapart.inOrder
  rw [hghost, hleft] at hstep
  have hemitted : system.emitted device record = itemsOf replayed.stream := by
    have hstate : ({ system.replay with batch := {}, chunk := [] } : ReplayState (Transfer Copy)) =
        fresh := by
      cases fresh
      cases hchunk
      cases hbound
      cases hmemory
      cases hbatch
      rfl
    unfold System.emitted
    rw [hstate, hreplayed]
  -- what is outstanding behind the record
  generalize hsystem : ({ system with
    replay := replayRecord device true system.replay record
    queries := queryStep system.queries record } : System Copy) = system'
  have hreplay : system'.replay = replayRecord device true system.replay record := by rw [← hsystem]
  have hqueries : system'.queries = queryStep system.queries record := by rw [← hsystem]
  have hlog : system'.log = system.log := by rw [← hsystem]
  rw [← hreplay] at hstep
  have houtstanding : system'.outstanding =
      system.outstanding ++ system.emitted device record := by
    have hcommitted : system'.committed = system.committed := by rw [← hsystem]
    rw [outstanding_eq hstep, outstanding_eq hsimulates, hcommitted, hemitted, stream_reframe,
      itemsOf_append, List.append_assoc]
    rfl
  have hentries : system'.entries device gpu = system.entries device gpu ++
      (itemsOf replayed.stream).map (Item.entry device gpu (queryStep system.queries record)) := by
    unfold System.entries
    rw [houtstanding, hqueries, List.map_append, entry_congr hapart.queries, hemitted]
  have hmemory' : system'.replay.memory = immediate device record system.replay.memory :=
    hstep.memory
  obtain ⟨hexecute, hobserve⟩ := execute_immediate hapart.writes system.replay.memory
  rw [← h.memory] at hexecute
  have hstream : (reframe [] (immediate device record reference.replay.memory) replayed).stream =
      replayed.stream := stream_reframe
  unfold referenceStep
  dsimp only
  rw [hright, hstream, h.queries]
  refine ⟨⟨chunk ++ replayed.chunk, ?_⟩, ?_, rfl, hqueries.symm, ?_, ?_, ?_⟩
  · rw [hmemory']
    exact hstep
  · rw [← hreplayed]
    exact replayRecord_batch hbatch record
  · rw [hentries, hmemory', execute_append, hexecute]
    rfl
  · rw [hentries, hmemory', observe_append, hexecute, hobserve, hlog, ← List.append_assoc, ← h.log]
    rfl
  · rw [houtstanding, hqueries, List.pairwise_append]
    have hcommands : ∀ x ∈ system.outstanding ++ system.emitted device record,
        ∀ y ∈ system.emitted device record,
          ReadbackApart device gpu (queryStep system.queries record) x y := by
      rintro x hx y hy resolve op rfl rfl
      exact hapart.commands resolve hx op hy
    refine ⟨h.apart.imp_of_mem ?_, ?_, ?_⟩
    · rintro x y hx _ hxy resolve op rfl rfl
      rw [hapart.queries resolve hx]
      exact hxy resolve op rfl rfl
    · exact List.pairwise_of_forall_mem_list fun x hx y hy =>
        hcommands x (List.mem_append_right _ hx) y hy
    · exact fun x hx y hy => hcommands x (List.mem_append_left _ hx) y hy

/-- A state with the same replay up to its bound part and its chunk, and the same work. -/
theorem Inv.of_outstanding (h : Inv device gpu system reference)
    (hsimulates : ∃ chunk, Simulates system'.replay
      { reference.replay with memory := system'.replay.memory, chunk := chunk })
    (hmemory : system'.replay.memory = system.replay.memory)
    (hqueries : system'.queries = system.queries) (hlog : system'.log = system.log)
    (houtstanding : system'.outstanding = system.outstanding) :
    Inv device gpu system' reference := by
  have hentries : system'.entries device gpu = system.entries device gpu := by
    unfold System.entries
    rw [houtstanding, hqueries]
  refine ⟨hsimulates, h.batch, h.chunk, hqueries ▸ h.queries, ?_, ?_, ?_⟩
  · rw [hentries, hmemory]
    exact h.memory
  · rw [hentries, hmemory, hlog]
    exact h.log
  · rw [houtstanding, hqueries]
    exact h.apart

/-- A new list starts without bindings. -/
theorem Inv.begin (h : Inv device gpu system reference) :
    Inv device gpu { system with replay := { system.replay with bound := {} } }
      (referenceStep device gpu reference .begin) := by
  obtain ⟨chunk, hsimulates⟩ := h.simulates
  exact ⟨⟨chunk, hsimulates.withBound {}⟩, h.batch, h.chunk, h.queries, h.memory, h.log, h.apart⟩

/-- The end of a list flushes the batch. -/
theorem Inv.finish (h : Inv device gpu system reference) :
    Inv device gpu { system with replay := flushGraphicsPassBatch system.replay } reference := by
  obtain ⟨chunk, hsimulates⟩ := h.simulates
  have hflushed := hsimulates.flush.1
  rw [@flush_batch _ { reference.replay with memory := system.replay.memory, chunk := chunk }
    h.batch] at hflushed
  have hmemory := (flush_bound system.replay).2
  refine h.of_outstanding ⟨chunk, ?_⟩ hmemory rfl rfl ?_
  · rw [hmemory]
    exact hflushed
  · rw [outstanding_eq hsimulates]
    exact @outstanding_eq _ { system with replay := flushGraphicsPassBatch system.replay } _
        hflushed

/-- What is committed is what the chunk holds. -/
theorem Inv.commit (h : Inv device gpu system reference)
    (hflushed : hasPendingGraphicsPass system.replay = false) :
    Inv device gpu
      { system with
        replay := { system.replay with chunk := [] }
        committed := system.committed ++ [itemsOf system.replay.stream] } reference := by
  obtain ⟨chunk, hsimulates⟩ := h.simulates
  have hcommands : system.replay.batch.commands = [] := by
    rw [hasPendingGraphicsPass_eq hsimulates.batchOk] at hflushed
    exact pending_of_not_active hsimulates.batchOk hflushed
  have hpending : system.replay.pending = [] := by
    unfold ReplayState.pending
    rw [hcommands, passOps_nil]
  refine h.of_outstanding ⟨[], ⟨hsimulates.bound, rfl, hsimulates.batchOk, hsimulates.commands,
    hsimulates.active, ?_⟩⟩ rfl rfl rfl ?_
  · exact hpending
  · unfold System.outstanding
    rw [hpending, List.append_nil, List.flatten_append, List.flatten_cons, List.flatten_nil,
      List.append_nil, List.append_assoc]
    refine congrArg (system.committed.flatten ++ ·) ?_
    show itemsOf system.replay.stream ++ itemsOf ([] ++ system.replay.pending) = _
    rw [hpending]
    exact List.append_nil _

/-- A chunk that is done leaves. -/
theorem Inv.retire (h : Inv device gpu system reference) {later : List (List (Item Copy))}
    (hcommitted : system.committed = [] :: later) :
    Inv device gpu { system with committed := later } reference := by
  refine h.of_outstanding h.simulates rfl rfl rfl ?_
  unfold System.outstanding
  rw [hcommitted]
  rfl

theorem entry_label_of_isReadback {item : Item Copy} (h : item.isReadback = true) :
    (item.entry device gpu queries).label = none := by
  cases item with
  | command op => cases h
  | readback resolve => rfl

/-- A command of the GPU is executed before the readbacks in front of it. -/
theorem Inv.execute (h : Inv device gpu system reference) {earlier later : List (List (Item Copy))}
    {front back : List (Item Copy)} {op : EncoderOp (Transfer Copy)}
    (hcommitted : system.committed = earlier ++ (front ++ .command op :: back) :: later)
    (hearlier : ∀ items ∈ earlier, ∀ item ∈ items, item.isReadback = true)
    (hfront : ∀ item ∈ front, item.isReadback = true) :
    Inv device gpu
      { system with
        replay := { system.replay with memory := (gpu op).run system.replay.memory }
        committed := earlier ++ (front ++ back) :: later
        log := system.log ++ [⟨op, (gpu op).observed system.replay.memory⟩] } reference := by
  obtain ⟨chunk, hsimulates⟩ := h.simulates
  generalize hbefore : earlier.flatten ++ front = before
  generalize hbehind : back ++ later.flatten ++
    itemsOf (system.replay.stream ++ system.replay.pending) = behind
  have houtstanding : system.outstanding = before ++ .command op :: behind := by
    unfold System.outstanding
    rw [hcommitted, ← hbefore, ← hbehind]
    simp
  have hreadbacks : ∀ item ∈ before, item.isReadback = true := fun item hmem => by
    rw [← hbefore, List.mem_append, List.mem_flatten] at hmem
    rcases hmem with ⟨items, hitems, hitem⟩ | hitem
    · exact hearlier items hitems item hitem
    · exact hfront item hitem
  have hpairwise := h.apart
  rw [houtstanding, List.pairwise_append, List.pairwise_cons] at hpairwise
  obtain ⟨hbeforepairs, ⟨_, hbehindpairs⟩, hcross⟩ := hpairwise
  have happart : ∀ entry ∈ before.map (Item.entry device gpu system.queries),
      entry.command.Apart (Item.entry device gpu system.queries (.command op)).command := by
    rintro entry hentry
    obtain ⟨item, hitem, rfl⟩ := List.mem_map.mp hentry
    cases item with
    | command op' => cases hreadbacks _ hitem
    | readback resolve =>
      exact hcross _ hitem _ List.mem_cons_self resolve op rfl rfl
  have hlabel : ∀ entry ∈ before.map (Item.entry device gpu system.queries),
      entry.label = none := by
    rintro entry hentry
    obtain ⟨item, hitem, rfl⟩ := List.mem_map.mp hentry
    exact entry_label_of_isReadback (hreadbacks item hitem)
  have hentries : system.entries device gpu = before.map (Item.entry device gpu system.queries) ++
      Item.entry device gpu system.queries (.command op) ::
        behind.map (Item.entry device gpu system.queries) := by
    unfold System.entries
    rw [houtstanding, List.map_append, List.map_cons]
  have hleft : ∀ system' : System Copy, system'.committed = earlier ++ (front ++ back) :: later →
      itemsOf (system'.replay.stream ++ system'.replay.pending) =
        itemsOf (system.replay.stream ++ system.replay.pending) →
      system'.outstanding = before ++ behind := fun system' hcommitted' hitems => by
    unfold System.outstanding
    rw [hcommitted', hitems, ← hbefore, ← hbehind]
    simp
  generalize hsystem : ({ system with
    replay := { system.replay with memory := (gpu op).run system.replay.memory }
    committed := earlier ++ (front ++ back) :: later
    log := system.log ++ [⟨op, (gpu op).observed system.replay.memory⟩] } : System Copy) = system'
  have houtstanding' : system'.outstanding = before ++ behind := by
    rw [← hsystem]
    exact hleft _ rfl rfl
  have hentries' : system'.entries device gpu =
      before.map (Item.entry device gpu system.queries) ++
        behind.map (Item.entry device gpu system.queries) := by
    unfold System.entries
    rw [houtstanding', ← hsystem, List.map_append]
  have hmemory' : system'.replay.memory = (gpu op).run system.replay.memory := by rw [← hsystem]
  have hqueries' : system'.queries = system.queries := by rw [← hsystem]
  refine ⟨⟨chunk, ?_⟩, h.batch, h.chunk, hqueries' ▸ h.queries, ?_, ?_, ?_⟩
  · rw [← hsystem]
    exact hsimulates.withMemory _
  · rw [h.memory, hentries, hentries', hmemory', execute_pull happart]
    rfl
  · rw [h.log, hentries, hentries', hmemory', observe_pull hlabel happart, ← hsystem,
      ← List.append_assoc]
    rfl
  · rw [houtstanding', hqueries', List.pairwise_append]
    exact ⟨hbeforepairs, hbehindpairs,
      fun x hx y hy => hcross x hx y (List.mem_cons_of_mem _ hy)⟩

/-- A readback is the first thing that is outstanding. -/
theorem Inv.readback (h : Inv device gpu system reference) {resolve : ResolveQueryDataRecord}
    {rest : List (Item Copy)} {later : List (List (Item Copy))}
    (hcommitted : system.committed = (.readback resolve :: rest) :: later) :
    Inv device gpu
      { system with
        replay := { system.replay with
          memory := (resolveCommand device system.queries resolve).run system.replay.memory }
        committed := rest :: later } reference := by
  obtain ⟨chunk, hsimulates⟩ := h.simulates
  generalize hsystem : ({ system with
    replay := { system.replay with
      memory := (resolveCommand device system.queries resolve).run system.replay.memory }
    committed := rest :: later } : System Copy) = system'
  have houtstanding : system.outstanding = .readback resolve :: system'.outstanding := by
    unfold System.outstanding
    rw [← hsystem, hcommitted]
    rfl
  have hqueries' : system'.queries = system.queries := by rw [← hsystem]
  have hlog' : system'.log = system.log := by rw [← hsystem]
  have hmemory' : system'.replay.memory =
      (resolveCommand device system.queries resolve).run system.replay.memory := by rw [← hsystem]
  have hentries : system.entries device gpu =
      Item.entry device gpu system.queries (.readback resolve) :: system'.entries device gpu := by
    unfold System.entries
    rw [houtstanding, hqueries', List.map_cons]
  refine ⟨⟨chunk, ?_⟩, h.batch, h.chunk, hqueries' ▸ h.queries, ?_, ?_, ?_⟩
  · rw [← hsystem]
    exact hsimulates.withMemory _
  · rw [h.memory, hentries, hmemory', execute_cons]
    rfl
  · rw [h.log, hentries, hmemory', hlog', observe]
    rfl
  · have hpairwise := h.apart
    rw [houtstanding, List.pairwise_cons] at hpairwise
    rw [hqueries']
    exact hpairwise.2

/-- The reference behind a step. -/
noncomputable def Reference.after (device : Device) (gpu : Gpu Copy) (reference : Reference Copy)
    (event : Option (Event Copy)) : Reference Copy :=
  event.toList.foldl (referenceStep device gpu) reference

/-- One step of the system keeps its memory in line with the reference. -/
theorem Inv.step (h : Inv device gpu system reference) {event : Option (Event Copy)}
    (hstep : Step device gpu system event system')
    (hcondition : ∀ e ∈ event, EventApart device gpu system e) :
    Inv device gpu system' (reference.after device gpu event) := by
  cases hstep with
  | begin hflushed => exact h.begin
  | record record => exact h.record (hcondition _ rfl)
  | finish => exact h.finish
  | commit hflushed => exact h.commit hflushed
  | execute hcommitted hearlier hfront => exact h.execute hcommitted hearlier hfront
  | readback hcommitted hrest => exact h.readback hcommitted
  | retire hcommitted => exact h.retire hcommitted

/-- A run of the system keeps its memory in line with the reference. -/
theorem Inv.run {memory : Memory} {events : List (Event Copy)}
    (hrun : Run device gpu (EventApart device gpu) memory queries events system) :
    Inv device gpu system (referenceRun device gpu memory queries events) := by
  induction hrun with
  | start =>
    exact ⟨⟨[], simulates_initial memory⟩, rfl, rfl, rfl, rfl, rfl, List.Pairwise.nil⟩
  | step hrun hstep hcondition ih =>
    unfold referenceRun
    rw [List.foldl_append]
    exact ih.step hstep hcondition

/-- **Queue order.** In a run whose records are apart from the outstanding work, the GPU executes
the commands of the reference, in order, and each of them reads what it reads there; when nothing is
outstanding, it has executed all of them and the memories are the same. -/
theorem observes_reference {memory : Memory} {events : List (Event Copy)}
    (hrun : Run device gpu (EventApart device gpu) memory queries events system) :
    system.log <+: (referenceRun device gpu memory queries events).log ∧
      (system.outstanding = [] →
        system.log = (referenceRun device gpu memory queries events).log ∧
          system.replay.memory = (referenceRun device gpu memory queries
            events).replay.memory) := by
  have h := Inv.run hrun
  refine ⟨⟨_, h.log.symm⟩, fun hidle => ?_⟩
  have hentries : system.entries device gpu = [] := by
    unfold System.entries
    rw [hidle]
    rfl
  rw [h.log, h.memory, hentries]
  exact ⟨(List.append_nil _).symm, rfl⟩

/-! ## Two runs -/

/-- `mixedDevice` with the allocation 8 at address 64. -/
def timelineDevice : Device :=
  { mixedDevice with
    bufferAt := fun address => if address = 64 then some (⟨8, 256, 0, some 8⟩, 0) else none }

/-- A copy writes one to the allocation 7. -/
def copyGpu : Gpu Unit
  | .transfer .copyBufferRegion (.copy ()) => updateCommand (7, 0) [1, 0, 0, 0, 0, 0, 0, 0]
  | _ => skipCommand

/-- A copy whose payload says nothing. -/
def copyRecord : Record (Transfer Unit) :=
  .transfer .copyBufferRegion (.copy ())

/-- An immediate write of five to address 64. -/
def writeRecord : Record (Transfer Unit) :=
  .writeBufferImmediate [⟨64, 5⟩]

/-- No query heap. -/
def noQueries : QueryState where
  heaps _ := none

theorem updateCommand_apart {place place' : Location} (h : place.1 ≠ place'.1)
    (data data' : List Byte) :
    (updateCommand place data).Apart (updateCommand place' data') := by
  constructor
  · rw [Set.disjoint_left]
    rintro l hl (hl' | hl')
    · exact hl'
    · exact h (hl.1.symm.trans hl'.1)
  · rw [Set.disjoint_left]
    rintro l hl (hl' | hl')
    · exact hl'
    · exact h (hl'.1.symm.trans hl.1)

/-- The copy is outstanding when the CPU writes elsewhere. -/
theorem writeRecord_apart :
    RecordApart timelineDevice copyGpu
      { replay := { memory := fun _ => 0, chunk := [.transfer .copyBufferRegion (.copy ())] }
        queries := noQueries } writeRecord where
  inOrder := trivial
  reads _ _ := Set.disjoint_empty _
  writes parameters hrecord parameter hparameter entry hentry := by
    cases hrecord
    obtain rfl := List.mem_singleton.mp hparameter
    obtain rfl := List.mem_singleton.mp hentry
    exact updateCommand_apart (by decide) _ _
  queries resolve hmem := by cases List.mem_singleton.mp hmem
  commands resolve _ op hop := by cases hop

/-- The copy is executed behind the write of the CPU. -/
theorem observes_reference_copy :
    ∃ system : System Unit, system.log.length = 1 ∧ system.outstanding = [] ∧
      system.log = (referenceRun timelineDevice copyGpu (fun _ => 0) noQueries
        [.record copyRecord, .record writeRecord]).log := by
  have hcopy : RecordApart timelineDevice copyGpu
      { replay := { memory := fun _ => 0 }, queries := noQueries } copyRecord :=
    ⟨trivial, (fun _ h => by cases h), (fun _ h => by cases h), (fun _ h => by cases h),
      fun resolve hmem => by cases List.mem_singleton.mp hmem⟩
  have hwrite : ∀ e ∈ some (Event.record writeRecord), EventApart timelineDevice copyGpu
      { replay := { memory := fun _ => 0, chunk := [.transfer .copyBufferRegion (.copy ())] }
        queries := noQueries } e := fun e he => by
    cases he
    exact writeRecord_apart
  have hnone : ∀ system : System Unit, ∀ e ∈ (none : Option (Event Unit)),
      EventApart timelineDevice copyGpu system e := fun _ _ h => by cases h
  have hstart :=
    @Run.start _ timelineDevice copyGpu (EventApart timelineDevice copyGpu) (fun _ => 0)
    noQueries
  have hreplayed := Run.step (Run.step hstart (Step.record copyRecord)
    fun e he => by cases he; exact hcopy) (Step.record writeRecord) hwrite
  have hcommitted := Run.step hreplayed (Step.commit rfl) (hnone _)
  have hexecuted := Run.step hcommitted (@Step.execute _ _ _ _ [] [] [] []
    (.transfer .copyBufferRegion (.copy ())) rfl (fun _ h => by cases h) (fun _ h => by cases h))
    (hnone _)
  have hretired := Run.step hexecuted (Step.retire rfl) (hnone _)
  exact ⟨_, rfl, rfl, ((observes_reference hretired).2 rfl).1⟩

/-- A copy that makes the predication false, and a draw behind it. -/
def predicatedRecords : List (Record (Transfer Unit)) :=
  [.pipelineState (some 0), .viewport [0], .renderTargets [0] none, copyRecord,
    .predication ⟨some 7, 0, .equalZero⟩, .drawInstanced ⟨3, 1, 0, 0⟩]

/-- A run on which there is no condition. -/
abbrev FreeRun : Memory → QueryState → List (Event Unit) → System Unit → Prop :=
  Run timelineDevice copyGpu fun _ _ => True

theorem FreeRun.records {memory : Memory} {queries : QueryState} {events : List (Event Unit)}
    {system : System Unit} (h : FreeRun memory queries events system)
    (records : List (Record (Transfer Unit))) :
    FreeRun memory queries (events ++ records.map .record)
      { system with
        replay := replayRecords timelineDevice true system.replay records
        queries := records.foldl queryStep system.queries } := by
  induction records generalizing events system with
  | nil =>
    rw [List.map_nil, List.append_nil]
    exact h
  | cons record records ih =>
    have hnext := ih (Run.step h (Step.record record) fun _ _ => trivial)
    rw [List.append_assoc] at hnext
    exact hnext

/-- The GPU executes everything in a chunk. -/
theorem FreeRun.executeAll {memory : Memory} {queries : QueryState} {events : List (Event Unit)}
    {items : List (Item Unit)} (hitems : ∀ item ∈ items, item.isReadback = false)
    {system : System Unit} (h : FreeRun memory queries events system)
    (hcommitted : system.committed = [items]) :
    ∃ system', FreeRun memory queries events system' ∧
      system'.log.length = system.log.length + items.length := by
  induction items generalizing system with
  | nil => exact ⟨system, h, rfl⟩
  | cons item items ih =>
    rw [List.forall_mem_cons] at hitems
    cases item with
    | readback record => cases hitems.1
    | command op =>
      have hstep := Run.step h (@Step.execute _ _ _ _ [] [] [] items op hcommitted
        (fun _ h => by cases h) (fun _ h => by cases h)) fun _ h => by cases h
      rw [Option.toList_none, List.append_nil] at hstep
      obtain ⟨system', hrun, hlength⟩ := ih hitems.2 hstep rfl
      refine ⟨system', hrun, ?_⟩
      rw [hlength, List.length_append, List.length_cons, List.length_cons, List.length_nil]
      omega

/-- The draw is executed, although the copy before it has made its predication false. -/
theorem predication_stale : ¬ ∀ (device : Device) (gpu : Gpu Unit) (memory : Memory)
    (queries : QueryState) (events : List (Event Unit)) (system : System Unit),
    Run device gpu (fun _ _ => True) memory queries events system →
      system.log <+: (referenceRun device gpu memory queries events).log := fun h => by
  have hstart := @Run.start _ timelineDevice copyGpu (fun _ _ => True) (fun _ => 0) noQueries
  have hrecords := FreeRun.records hstart predicatedRecords
  have hcommitted := Run.step (Run.step hrecords Step.finish fun _ h => by cases h)
    (Step.commit (by decide)) fun _ h => by cases h
  rw [Option.toList_none, List.append_nil, List.append_nil, List.nil_append] at hcommitted
  generalize hitems : itemsOf (flushGraphicsPassBatch (replayRecords timelineDevice true
    { memory := fun _ => 0 } predicatedRecords)).stream = items at hcommitted
  have hcommands : items.all (fun item => !item.isReadback) = true := by
    rw [← hitems]
    decide
  have hcount : items.length = 2 := by
    rw [← hitems]
    decide
  obtain ⟨system, hrun, hlength⟩ := FreeRun.executeAll
    (fun item hmem => by simpa using List.all_eq_true.mp hcommands item hmem) hcommitted rfl
  have hprefix := (h _ _ _ _ _ _ hrun).length_le
  have hreference : (referenceRun timelineDevice copyGpu (fun _ => 0) noQueries
      (predicatedRecords.map Event.record)).log.length = 1 := by decide
  rw [hlength, hcount, hreference] at hprefix
  change 0 + 2 ≤ 1 at hprefix
  exact absurd hprefix (by decide)

end Replay

end Dxmt
