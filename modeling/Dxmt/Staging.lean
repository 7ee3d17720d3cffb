import Mathlib.Logic.Relation
import Mathlib.Logic.Function.Iterate
import Mathlib.Order.MinMax
import Mathlib.Data.List.Nodup

/-!
# Staging resources: `StagingResource`

A staging resource is a buffer that the CPU maps and the GPU copies from or to. Its buffer has a
name, one of a pool of allocations. A map for writing that finds the buffer read by the GPU, but not
written any more, renames it: the contents go to another allocation and the old one waits in a queue
until the chunks that used it are coherent. A map that finds the buffer written by the GPU waits.

One state is the resource together with what `Map` reads of the immediate context: the sequence ids,
and the flags that decide whether `Flush` commits the chunk. `uses` has every GPU copy recorded so
far with the allocation it goes to, which is the name when it is recorded: the commands that rename
the `Buffer` stand in the same chunk. The contents of the allocations are functions of the offset; a
GPU write changes them at any time until its chunk is coherent.

Results: `Inv.step` is the invariant, `mapOnce_spec` what one turn of the loop in `Map` does, and
`staging_coherent` the statement about runs. The loop ends in its second turn.

Source: `dxmt_staging.cpp:29-96`, `d3d11_context_imm.cpp:242-288, 530-551, 641-646`.
-/

namespace Dxmt

/-- `StagingMapResult`, where a number is what is left to wait. -/
inductive StagingMapResult where
  | mappable
  | renamable
  | mapped
  | wait (remaining : Nat)
deriving DecidableEq

/-- A GPU copy from or to the resource: its allocation, and the sequence id of its chunk. -/
structure StagingUse where
  allocation : Nat
  seqId : Nat
  write : Bool
deriving DecidableEq

/-- `StagingResource::QueueEntry`. -/
structure StagingQueueEntry where
  id : Nat
  willFreeAt : Nat

/-- `StagingResource`, and the immediate context it is used by. -/
structure Staging (Byte : Type) where
  length : Nat
  immediateName : Nat := 0
  /-- The number of entries of `buffer_pool`. -/
  poolSize : Nat := 1
  fifo : List StagingQueueEntry := []
  mapped : Bool := false
  cpuCoherentAfterFinishedSeqId : Nat := 0
  gpuOccupiedUntilFinishedSeqId : Nat := 0
  /-- `mappedMemory(id)` of every allocation. -/
  memory : Nat → Nat → Byte
  currentSeqId : Nat := 1
  coherentSeqId : Nat := 0
  hasDirtyOpSinceLastEvent : Bool := false
  promoteFlush : Bool := false
  /-- `pending_buffer_updates_` has an entry. -/
  pendingBufferUpdates : Bool := false
  uses : List StagingUse := []

namespace Staging

variable {Byte : Type}

/-! ## `StagingResource` -/

/-- `useCopyDestination`: the GPU writes in the sequence. -/
def useCopyDestination (s : Staging Byte) (seqId : Nat) : Staging Byte :=
  { s with
    cpuCoherentAfterFinishedSeqId := max seqId s.cpuCoherentAfterFinishedSeqId
    gpuOccupiedUntilFinishedSeqId := max seqId s.gpuOccupiedUntilFinishedSeqId
    uses := ⟨s.immediateName, seqId, true⟩ :: s.uses }

/-- `useCopySource`: the GPU reads in the sequence. -/
def useCopySource (s : Staging Byte) (seqId : Nat) : Staging Byte :=
  { s with
    gpuOccupiedUntilFinishedSeqId := max seqId s.gpuOccupiedUntilFinishedSeqId
    uses := ⟨s.immediateName, seqId, false⟩ :: s.uses }

/-- The uses of a command list: the sources, then the destinations. -/
def useAll (s : Staging Byte) (seqId sources destinations : Nat) : Staging Byte :=
  (fun s => s.useCopyDestination seqId)^[destinations]
  ((fun s => s.useCopySource seqId)^[sources] s)

/-- `tryMap`: mapped, renamed, or the sequence to wait for. -/
def tryMap (s : Staging Byte) (coherentSeqId : Nat) (read write : Bool) : StagingMapResult :=
  if s.mapped then
    .mapped
  else if read ∧ coherentSeqId < s.cpuCoherentAfterFinishedSeqId then
    .wait (s.cpuCoherentAfterFinishedSeqId - coherentSeqId)
  else if write ∧ coherentSeqId < s.gpuOccupiedUntilFinishedSeqId then
    if coherentSeqId ≥ s.cpuCoherentAfterFinishedSeqId then .renamable
    else .wait (s.gpuOccupiedUntilFinishedSeqId - coherentSeqId)
  else
    .mappable

/-- `unmap`. -/
def unmap (s : Staging Byte) : Staging Byte := { s with mapped := false }

/-- `buffer_pool.push_back`: a new allocation, with whatever is in it. -/
def pushAllocation (s : Staging Byte) (fresh : Nat → Byte) : Nat × Staging Byte :=
  (s.poolSize, { s with
    poolSize := s.poolSize + 1
    memory := Function.update s.memory s.poolSize fresh })

/-- `allocate`: the oldest entry of the queue if it is free, else a new allocation. -/
def allocate (s : Staging Byte) (coherentSeqId : Nat) (fresh : Nat → Byte) : Nat × Staging Byte :=
  match s.fifo with
  | [] => s.pushAllocation fresh
  | entry :: rest =>
    if entry.willFreeAt > coherentSeqId then s.pushAllocation fresh
    else (entry.id, { s with fifo := rest })

/-- `updateImmediateName`: the old name waits until its sequence is done. -/
def updateImmediateName (s : Staging Byte) (currentSeqId allocation : Nat) : Staging Byte :=
  { s with
    fifo := s.fifo ++ [⟨s.immediateName, currentSeqId⟩]
    immediateName := allocation
    cpuCoherentAfterFinishedSeqId := 0
    gpuOccupiedUntilFinishedSeqId := 0 }

/-- `memcpy` of the whole buffer into another allocation. -/
def copyContents (s : Staging Byte) (dst src : Nat) : Staging Byte :=
  { s with
    memory := Function.update s.memory dst fun i =>
      if i < s.length then s.memory src i else s.memory dst i }

/-! ## The immediate context -/

/-- `Commit`. -/
def commit (s : Staging Byte) : Staging Byte :=
  { s with
    promoteFlush := false
    currentSeqId := s.currentSeqId + 1
    hasDirtyOpSinceLastEvent := false }

/-- `Flush`, called by `Map`, commits once. In the source `FlushAllPendingBufferUpdates` commits as
well when it ends a pass while `promote_flush` is set; a second commit is the step `Step.commit`. -/
def flush (s : Staging Byte) : Staging Byte :=
  if s.pendingBufferUpdates || s.hasDirtyOpSinceLastEvent || s.promoteFlush then
    { s.commit with pendingBufferUpdates := false }
  else
    s

/-- `CopyResource` to the resource: the chunk is flushed early. -/
def copyTo (s : Staging Byte) : Staging Byte :=
  { s.useCopyDestination s.currentSeqId with hasDirtyOpSinceLastEvent := true, promoteFlush :=
    true }

/-- `CopyResource` from the resource. -/
def copyFrom (s : Staging Byte) : Staging Byte :=
  { s.useCopySource s.currentSeqId with hasDirtyOpSinceLastEvent := true }

/-- `ExecuteCommandList` of a list with these uses of the resource. -/
def executeCommandList (s : Staging Byte) (sources destinations : Nat) (promoteFlush : Bool) :
    Staging Byte :=
  { s with promoteFlush := promoteFlush, hasDirtyOpSinceLastEvent := true }.useAll s.currentSeqId
    sources destinations

/-- `End` of an event query. -/
def endEvent (s : Staging Byte) : Staging Byte :=
  if s.pendingBufferUpdates || s.hasDirtyOpSinceLastEvent then
    { s with pendingBufferUpdates := false, promoteFlush := true, hasDirtyOpSinceLastEvent :=
      false }
  else
    s

/-- What one turn of the loop in `Map` ends with. -/
inductive MapTurn where
  | invalidArg
  | fail
  | wasStillDrawing
  /-- The allocation whose memory is returned. -/
  | memory (allocation : Nat)
  /-- The loop waits for a sequence id and goes on. -/
  | wait (seqId : Nat)
deriving DecidableEq

/-- One turn of the loop in `Map`. `fresh` is what a new allocation has in it. -/
def mapOnce (s : Staging Byte) (read write doNotWait : Bool) (fresh : Nat → Byte) :
    MapTurn × Staging Byte :=
  match s.tryMap s.coherentSeqId read write with
  | .mapped => (.fail, s)
  | .renamable =>
    let (nextName, s') := s.allocate s.coherentSeqId fresh
    let s' := (s'.copyContents nextName s'.immediateName).updateImmediateName s'.currentSeqId
        nextName
    (.memory s'.immediateName, s')
  | .mappable => (.memory s.immediateName, s)
  | .wait remaining =>
    if doNotWait then (.wasStillDrawing, s) else (.wait (s.coherentSeqId + remaining), s.flush)

/-- `Map` of a staging resource, up to the end of a turn: `D3D11_MAP_READ`, `D3D11_MAP_WRITE` and
`D3D11_MAP_READ_WRITE` only. -/
def map (s : Staging Byte) (mapType : Nat) (doNotWait : Bool) (fresh : Nat → Byte) :
    MapTurn × Staging Byte :=
  if mapType > 3 ∨ mapType = 0 then (.invalidArg, s)
  else s.mapOnce (mapType.testBit 0) (mapType.testBit 1) doNotWait fresh

/-! ## Runs -/

/-- What the GPU does: a chunk becomes coherent, or a copy writes. -/
inductive GpuStep (s : Staging Byte) : Staging Byte → Prop
  | advance (seqId : Nat) (h : s.coherentSeqId ≤ seqId) (hlt : seqId < s.currentSeqId) :
      GpuStep s { s with coherentSeqId := seqId }
  | write (u : StagingUse) (hu : u ∈ s.uses) (hw : u.write = true) (h : s.coherentSeqId < u.seqId)
      (data : Nat → Byte) :
      GpuStep s { s with memory := Function.update s.memory u.allocation data }

/-- A step of the GPU, the application or another command of the context. The loop of `Map` is left
between two turns, when other steps than those of the GPU do not happen in the program. -/
inductive Step (s : Staging Byte) : Staging Byte → Prop
  | gpu (s' : Staging Byte) (h : GpuStep s s') : Step s s'
  | copyTo : Step s s.copyTo
  | copyFrom : Step s s.copyFrom
  | execute (sources destinations : Nat) (promoteFlush : Bool) :
      Step s (s.executeCommandList sources destinations promoteFlush)
  /-- Another command in the chunk. -/
  | emit : Step s { s with hasDirtyOpSinceLastEvent := true }
  /-- A query that ends, or another copy to the CPU. -/
  | promote : Step s { s with hasDirtyOpSinceLastEvent := true, promoteFlush := true }
  | queueUpdate : Step s { s with pendingBufferUpdates := true }
  | flushUpdates : Step s { s with pendingBufferUpdates := false, hasDirtyOpSinceLastEvent := true }
  | endEvent : Step s s.endEvent
  | commit : Step s s.commit
  | unmap : Step s s.unmap
  | map (mapType : Nat) (doNotWait : Bool) (fresh : Nat → Byte) :
      Step s (s.map mapType doNotWait fresh).2
  /-- The application writes to the memory of the name. -/
  | cpuWrite (data : Nat → Byte) :
      Step s { s with memory := Function.update s.memory s.immediateName data }

/-- A resource after its constructor, used by a context at any time. -/
structure IsInit (s : Staging Byte) : Prop where
  name : s.immediateName < s.poolSize
  fifo : s.fifo = []
  mapped : s.mapped = false
  cpu : s.cpuCoherentAfterFinishedSeqId = 0
  gpu : s.gpuOccupiedUntilFinishedSeqId = 0
  uses : s.uses = []
  coherent : s.coherentSeqId < s.currentSeqId

/-- The states of all runs. -/
def Reachable (s : Staging Byte) : Prop :=
  ∃ s₀, IsInit s₀ ∧ Relation.ReflTransGen Step s₀ s

/-! ## The invariant -/

/-- What holds in every state. -/
structure Inv (s : Staging Byte) : Prop where
  mapped : s.mapped = false
  coherent : s.coherentSeqId < s.currentSeqId
  name : s.immediateName < s.poolSize
  used : ∀ u ∈ s.uses, u.seqId ≤ s.currentSeqId ∧ u.allocation < s.poolSize
  /-- A use of the name is coherent, or known. -/
  occupied : ∀ u ∈ s.uses, u.allocation = s.immediateName →
    u.seqId ≤ s.coherentSeqId ∨ u.seqId ≤ s.gpuOccupiedUntilFinishedSeqId
  /-- A write is coherent, or a known one of the name. -/
  written : ∀ u ∈ s.uses, u.write = true → u.seqId ≤ s.coherentSeqId ∨
    (u.allocation = s.immediateName ∧ u.seqId ≤ s.cpuCoherentAfterFinishedSeqId)
  fifo : ∀ e ∈ s.fifo, e.id ≠ s.immediateName ∧ e.id < s.poolSize ∧
    ∀ u ∈ s.uses, u.allocation = e.id → u.seqId ≤ e.willFreeAt
  distinct : (s.fifo.map StagingQueueEntry.id).Nodup
  /-- What `Map` may wait for is in a committed chunk, or in one that `Flush` commits. -/
  flushed : s.cpuCoherentAfterFinishedSeqId ≤ s.currentSeqId ∧
    s.gpuOccupiedUntilFinishedSeqId ≤ s.currentSeqId ∧
    (s.cpuCoherentAfterFinishedSeqId = s.currentSeqId ∨
      s.gpuOccupiedUntilFinishedSeqId = s.currentSeqId →
      s.hasDirtyOpSinceLastEvent = true ∨ s.promoteFlush = true)

variable {s s' s₂ : Staging Byte}

/-- A step that leaves the resource alone, and does not forget that the chunk has commands. -/
theorem Inv.frame (h : Inv s) {dirty promote pending : Bool}
    (hflag : s.hasDirtyOpSinceLastEvent = true ∨ s.promoteFlush = true →
      dirty = true ∨ promote = true) :
    Inv { s with
      hasDirtyOpSinceLastEvent := dirty
      promoteFlush := promote
      pendingBufferUpdates := pending } :=
  ⟨h.mapped, h.coherent, h.name, h.used, h.occupied, h.written, h.fifo, h.distinct,
    h.flushed.1, h.flushed.2.1, fun he => hflag (h.flushed.2.2 he)⟩

theorem Inv.memory (h : Inv s) (m : Nat → Nat → Byte) : Inv { s with memory := m } :=
  ⟨h.mapped, h.coherent, h.name, h.used, h.occupied, h.written, h.fifo, h.distinct, h.flushed⟩

theorem Inv.commit (h : Inv s) : Inv s.commit := by
  obtain ⟨hcpu, hgpu, -⟩ := h.flushed
  refine ⟨h.mapped, Nat.lt_succ_of_lt h.coherent, h.name, fun u hu => ?_, h.occupied, h.written,
    h.fifo, h.distinct, Nat.le_succ_of_le hcpu, Nat.le_succ_of_le hgpu, fun he => ?_⟩
  · exact ⟨Nat.le_succ_of_le (h.used u hu).1, (h.used u hu).2⟩
  · unfold Staging.commit at he
    dsimp only at he
    omega

theorem Inv.flush (h : Inv s) : Inv s.flush := by
  unfold Staging.flush
  split
  · exact h.commit.frame id
  · exact h

theorem Inv.endEvent (h : Inv s) : Inv s.endEvent := by
  unfold Staging.endEvent
  split
  · exact h.frame fun _ => Or.inr rfl
  · exact h

/-- A use in the current chunk. -/
theorem Inv.useCopyDestination (h : Inv s) (hflag : s.hasDirtyOpSinceLastEvent = true) :
    Inv (s.useCopyDestination s.currentSeqId) := by
  obtain ⟨hcpu, hgpu, -⟩ := h.flushed
  refine ⟨h.mapped, h.coherent, h.name, ?_, ?_, ?_, fun e he => ?_, h.distinct,
    max_le (Nat.le_refl _) hcpu, max_le (Nat.le_refl _) hgpu, fun _ => Or.inl hflag⟩
  · exact List.forall_mem_cons.mpr ⟨⟨Nat.le_refl _, h.name⟩, h.used⟩
  · refine List.forall_mem_cons.mpr ⟨fun _ => Or.inr (le_max_left _ _), fun u hu hn => ?_⟩
    exact (h.occupied u hu hn).imp_right fun hle => hle.trans (le_max_right _ _)
  · refine List.forall_mem_cons.mpr ⟨fun _ => Or.inr ⟨rfl, le_max_left _ _⟩, fun u hu hw => ?_⟩
    exact (h.written u hu hw).imp_right fun hle => ⟨hle.1, hle.2.trans (le_max_right _ _)⟩
  · obtain ⟨hne, hlt, hfree⟩ := h.fifo e he
    exact ⟨hne, hlt, List.forall_mem_cons.mpr ⟨fun heq => absurd heq.symm hne, hfree⟩⟩

theorem Inv.useCopySource (h : Inv s) (hflag : s.hasDirtyOpSinceLastEvent = true) :
    Inv (s.useCopySource s.currentSeqId) := by
  obtain ⟨hcpu, hgpu, -⟩ := h.flushed
  refine ⟨h.mapped, h.coherent, h.name, ?_, ?_, ?_, fun e he => ?_, h.distinct,
    hcpu, max_le (Nat.le_refl _) hgpu, fun _ => Or.inl hflag⟩
  · exact List.forall_mem_cons.mpr ⟨⟨Nat.le_refl _, h.name⟩, h.used⟩
  · refine List.forall_mem_cons.mpr ⟨fun _ => Or.inr (le_max_left _ _), fun u hu hn => ?_⟩
    exact (h.occupied u hu hn).imp_right fun hle => hle.trans (le_max_right _ _)
  · exact List.forall_mem_cons.mpr ⟨fun hw => Bool.noConfusion hw, h.written⟩
  · obtain ⟨hne, hlt, hfree⟩ := h.fifo e he
    exact ⟨hne, hlt, List.forall_mem_cons.mpr ⟨fun heq => absurd heq.symm hne, hfree⟩⟩

theorem Inv.executeCommandList (h : Inv s) (sources destinations : Nat) (promoteFlush : Bool) :
    Inv (s.executeCommandList sources destinations promoteFlush) := by
  have hstart : Inv { s with promoteFlush := promoteFlush, hasDirtyOpSinceLastEvent := true } :=
    h.frame fun _ => Or.inl rfl
  -- every use is one of the current chunk, which has a command
  let P : Staging Byte → Prop := fun t =>
    Inv t ∧ t.hasDirtyOpSinceLastEvent = true ∧ t.currentSeqId = s.currentSeqId
  have hsource : ∀ t, P t → P (t.useCopySource s.currentSeqId) := fun t ht =>
    ⟨ht.2.2 ▸ ht.1.useCopySource ht.2.1, ht.2⟩
  have hdestination : ∀ t, P t → P (t.useCopyDestination s.currentSeqId) := fun t ht =>
    ⟨ht.2.2 ▸ ht.1.useCopyDestination ht.2.1, ht.2⟩
  exact (Function.Iterate.rec P (Function.Iterate.rec P ⟨hstart, rfl, rfl⟩ hsource sources)
    hdestination destinations).1

theorem Inv.gpuStep (h : Inv s) (hs : GpuStep s s') : Inv s' := by
  cases hs with
  | advance seqId hle hlt =>
    refine ⟨h.mapped, hlt, h.name, h.used, fun u hu hn => ?_, fun u hu hw => ?_, h.fifo, h.distinct,
      h.flushed⟩
    · exact (h.occupied u hu hn).imp_left fun hc => hc.trans hle
    · exact (h.written u hu hw).imp_left fun hc => hc.trans hle
  | write u hu hw hlt data => exact h.memory _

/-- A new or a free allocation. -/
theorem Inv.allocate (h : Inv s) (fresh : Nat → Byte) {a : Nat}
    (ha : s.allocate s.coherentSeqId fresh = (a, s')) :
    (∀ u ∈ s.uses, u.allocation = a → u.seqId ≤ s.coherentSeqId) ∧ a ≠ s.immediateName ∧
      a < s'.poolSize ∧ (∀ e ∈ s'.fifo, e.id ≠ a) ∧
      s' = { s with poolSize := s'.poolSize, fifo := s'.fifo, memory := s'.memory } ∧
      s'.memory s.immediateName = s.memory s.immediateName ∧ Inv s' := by
  have hnew : s.pushAllocation fresh = (a, s') →
      (∀ u ∈ s.uses, u.allocation = a → u.seqId ≤ s.coherentSeqId) ∧ a ≠ s.immediateName ∧
      a < s'.poolSize ∧ (∀ e ∈ s'.fifo, e.id ≠ a) ∧
      s' = { s with poolSize := s'.poolSize, fifo := s'.fifo, memory := s'.memory } ∧
      s'.memory s.immediateName = s.memory s.immediateName ∧ Inv s' := by
    intro he
    cases he
    have hname := h.name
    refine ⟨fun u hu hua => ?_, Ne.symm (Nat.ne_of_lt hname), Nat.lt_succ_self _,
      fun e he => Nat.ne_of_lt (h.fifo e he).2.1, rfl,
      Function.update_of_ne (Nat.ne_of_lt hname) _ _, h.mapped, h.coherent,
      Nat.lt_succ_of_lt hname, fun u hu => ⟨(h.used u hu).1, Nat.lt_succ_of_lt (h.used u hu).2⟩,
      h.occupied, h.written, fun e he => ?_, h.distinct, h.flushed⟩
    · exact absurd hua (Nat.ne_of_lt (h.used u hu).2)
    · obtain ⟨hne, hlt, hfree⟩ := h.fifo e he
      exact ⟨hne, Nat.lt_succ_of_lt hlt, hfree⟩
  unfold Staging.allocate at ha
  split at ha
  · exact hnew ha
  · next entry rest hf =>
    split at ha
    · exact hnew ha
    · next hfree =>
      cases ha
      have hentry := h.fifo entry (hf ▸ List.mem_cons_self ..)
      have hdistinct := h.distinct
      rw [hf, List.map_cons, List.nodup_cons] at hdistinct
      have hrest : ∀ e ∈ rest, e ∈ s.fifo := fun e he => hf ▸ List.mem_cons_of_mem _ he
      refine ⟨fun u hu hua => (hentry.2.2 u hu hua).trans (Nat.le_of_not_lt hfree), hentry.1,
        hentry.2.1, fun e he heq => hdistinct.1 (heq ▸ List.mem_map_of_mem he), rfl, rfl,
        h.mapped, h.coherent, h.name, h.used, h.occupied, h.written,
        fun e he => h.fifo e (hrest e he), hdistinct.2, h.flushed⟩

/-- A rename, when the GPU does not write to the name any more. -/
theorem Inv.rename (h : Inv s) (fresh : Nat → Byte) {a : Nat}
    (ha : s.allocate s.coherentSeqId fresh = (a, s'))
    (hcpu : s.cpuCoherentAfterFinishedSeqId ≤ s.coherentSeqId) :
    Inv ((s'.copyContents a s'.immediateName).updateImmediateName s'.currentSeqId a) := by
  obtain ⟨hfree, hne, hlt, hqueue, heq, -, hinv⟩ := h.allocate fresh ha
  have hname : s'.immediateName = s.immediateName := by rw [heq]
  have hcpu' : s'.cpuCoherentAfterFinishedSeqId ≤ s'.coherentSeqId := by
    rw [heq]
    exact hcpu
  have hfree' : ∀ u ∈ s'.uses, u.allocation = a → u.seqId ≤ s'.coherentSeqId := by
    rw [heq]
    exact hfree
  refine ⟨hinv.mapped, hinv.coherent, hlt, hinv.used, fun u hu hua => Or.inl (hfree' u hu hua),
    fun u hu hw => Or.inl ?_, fun e he => ?_, ?_, Nat.zero_le _, Nat.zero_le _, fun hz => ?_⟩
  · exact (hinv.written u hu hw).elim id fun hk => hk.2.trans hcpu'
  · rcases List.mem_append.mp he with he | he
    · obtain ⟨-, hlt', hfree'⟩ := hinv.fifo e he
      exact ⟨hqueue e he, hlt', hfree'⟩
    · rw [List.mem_singleton.mp he]
      exact ⟨hname ▸ hne.symm, hinv.name, fun u hu _ => (hinv.used u hu).1⟩
  · show ((s'.fifo ++ [(⟨s'.immediateName, s'.currentSeqId⟩ : StagingQueueEntry)]).map
      StagingQueueEntry.id).Nodup
    rw [List.map_append, List.nodup_append]
    refine ⟨hinv.distinct, List.nodup_singleton _, fun x hx y hy hxy => ?_⟩
    obtain ⟨e, he, rfl⟩ := List.mem_map.mp hx
    exact (hinv.fifo e he).1 (hxy.trans (List.mem_singleton.mp hy))
  · have := hinv.coherent
    unfold updateImmediateName copyContents at hz
    dsimp only at hz
    omega

theorem tryMap_renamable {read write : Bool}
    (h : s.tryMap s.coherentSeqId read write = .renamable) :
    write = true ∧ s.cpuCoherentAfterFinishedSeqId ≤ s.coherentSeqId := by
  unfold tryMap at h
  split at h
  · cases h
  split at h
  · cases h
  split at h
  · next hw =>
    split at h
    · next hle => exact ⟨hw.1, hle⟩
    · cases h
  · cases h

/-- What a map waits for. -/
theorem tryMap_wait {seqId remaining : Nat} {read write : Bool}
    (h : s.tryMap seqId read write = .wait remaining) :
    seqId + remaining = s.cpuCoherentAfterFinishedSeqId ∨
      (read = false ∧ seqId + remaining = s.gpuOccupiedUntilFinishedSeqId) := by
  unfold tryMap at h
  split at h
  · cases h
  split at h
  · next hr =>
    cases h
    exact Or.inl (Nat.add_sub_cancel' (Nat.le_of_lt hr.2))
  next hr =>
  split at h
  · next hw =>
    split at h
    · cases h
    · next hcpu =>
      cases h
      refine Or.inr ⟨?_, Nat.add_sub_cancel' (Nat.le_of_lt hw.2)⟩
      rw [← Bool.not_eq_true]
      exact fun hread => hr ⟨hread, Nat.lt_of_not_le hcpu⟩
  · cases h

/-- **One turn of the loop in `Map`.** -/
theorem Inv.mapOnce (h : Inv s) (read write doNotWait : Bool) (fresh : Nat → Byte) :
    Inv (s.mapOnce read write doNotWait fresh).2 := by
  unfold Staging.mapOnce
  cases ht : s.tryMap s.coherentSeqId read write with
  | mapped => exact h
  | mappable => exact h
  | renamable => exact h.rename fresh rfl (tryMap_renamable ht).2
  | wait remaining =>
    dsimp only
    split
    · exact h
    · exact h.flush

theorem Inv.map (h : Inv s) (mapType : Nat) (doNotWait : Bool) (fresh : Nat → Byte) :
    Inv (s.map mapType doNotWait fresh).2 := by
  unfold Staging.map
  split
  · exact h
  · exact h.mapOnce _ _ doNotWait fresh

theorem Inv.step (h : Inv s) (hs : Step s s') : Inv s' := by
  cases hs with
  | gpu s' hs => exact h.gpuStep hs
  | copyTo =>
    have hdirty : Inv { s with hasDirtyOpSinceLastEvent := true, promoteFlush := true } :=
      h.frame fun _ => Or.inl rfl
    exact hdirty.useCopyDestination rfl
  | copyFrom =>
    have hdirty : Inv { s with hasDirtyOpSinceLastEvent := true } := h.frame fun _ => Or.inl rfl
    exact hdirty.useCopySource rfl
  | execute sources destinations promoteFlush =>
    exact h.executeCommandList sources destinations promoteFlush
  | emit => exact h.frame fun _ => Or.inl rfl
  | promote => exact h.frame fun _ => Or.inl rfl
  | queueUpdate => exact h.frame id
  | flushUpdates => exact h.frame fun _ => Or.inl rfl
  | endEvent => exact h.endEvent
  | commit => exact h.commit
  | unmap =>
    exact ⟨rfl, h.coherent, h.name, h.used, h.occupied, h.written, h.fifo, h.distinct, h.flushed⟩
  | map mapType doNotWait fresh => exact h.map mapType doNotWait fresh
  | cpuWrite data => exact h.memory _

theorem inv_reachable (h : Reachable s) : Inv s := by
  obtain ⟨s₀, hinit, hrun⟩ := h
  induction hrun with
  | refl =>
    obtain ⟨hname, hfifo, hmapped, hcpu, hgpu, huses, hcoherent⟩ := hinit
    refine ⟨hmapped, hcoherent, hname, ?_, ?_, ?_, ?_, ?_, ?_⟩
    · rw [huses]
      exact fun u hu => absurd hu List.not_mem_nil
    · rw [huses]
      exact fun u hu => absurd hu List.not_mem_nil
    · rw [huses]
      exact fun u hu => absurd hu List.not_mem_nil
    · rw [hfifo]
      exact fun e he => absurd he List.not_mem_nil
    · rw [hfifo]
      exact List.nodup_nil
    · rw [hcpu, hgpu]
      exact ⟨Nat.zero_le _, Nat.zero_le _, fun hz => by omega⟩
  | tail _ hs ih => exact ih.step hs

/-! ## What `Map` returns -/

/-- The GPU leaves everything but the coherent id and the contents of what it writes. -/
theorem gpu_frame (h : Relation.ReflTransGen GpuStep s s₂) :
    s₂ = { s with coherentSeqId := s₂.coherentSeqId, memory := s₂.memory } ∧
      s.coherentSeqId ≤ s₂.coherentSeqId := by
  induction h with
  | refl => exact ⟨rfl, Nat.le_refl _⟩
  | tail _ hs ih =>
    obtain ⟨heq, hle⟩ := ih
    cases hs with
    | advance seqId hle' hlt =>
      rw [heq]
      exact ⟨rfl, hle.trans hle'⟩
    | write u hu hw hlt data =>
      rw [heq]
      exact ⟨rfl, hle⟩

/-- Memory without a pending write stays as it is while only the GPU runs. -/
theorem gpu_memory {a : Nat} (h : Relation.ReflTransGen GpuStep s s₂)
    (ha : ∀ u ∈ s.uses, u.write = true → u.allocation = a → u.seqId ≤ s.coherentSeqId) :
    s₂.memory a = s.memory a := by
  induction h with
  | refl => rfl
  | tail hrun hs ih =>
    obtain ⟨heq, hle⟩ := gpu_frame hrun
    cases hs with
    | advance seqId hle' hlt => exact ih
    | write u hu hw hlt data =>
      rw [heq] at hu
      refine (Function.update_of_ne (fun hua => ?_) _ _).trans ih
      have := ha u hu hw hua.symm
      omega

/-- What a successful map promises: for reading, all GPU writes recorded so far are coherent; for
writing, all uses of the returned buffer are; and the contents are those of the old buffer. -/
structure MapSafe (s s' : Staging Byte) (read write : Bool) (a : Nat) : Prop where
  name : s'.immediateName = a
  read : read = true → ∀ u ∈ s'.uses, u.write = true → u.seqId ≤ s'.coherentSeqId
  write : write = true → ∀ u ∈ s'.uses, u.allocation = a → u.seqId ≤ s'.coherentSeqId
  contents : ∀ i < s.length, s'.memory a i = s.memory s.immediateName i

theorem Inv.mapOnce_memory (h : Inv s) {read write doNotWait : Bool} {fresh : Nat → Byte} {a : Nat}
    (ha : s.mapOnce read write doNotWait fresh = (.memory a, s')) : MapSafe s s' read write a := by
  unfold Staging.mapOnce at ha
  cases ht : s.tryMap s.coherentSeqId read write with
  | mapped =>
    rw [ht] at ha
    cases ha
  | wait remaining =>
    rw [ht] at ha
    dsimp only at ha
    split at ha <;> cases ha
  | mappable =>
    rw [ht] at ha
    cases ha
    unfold tryMap at ht
    rw [h.mapped, if_neg Bool.false_ne_true] at ht
    split at ht
    · cases ht
    next hr =>
    split at ht
    · split at ht <;> cases ht
    next hw =>
    refine ⟨rfl, fun hread u hu huw => ?_, fun hwrite u hu hua => ?_, fun i _ => rfl⟩
    · have hcpu : s.cpuCoherentAfterFinishedSeqId ≤ s.coherentSeqId :=
        Nat.le_of_not_lt fun hlt => hr ⟨hread, hlt⟩
      exact (h.written u hu huw).elim id fun hk => hk.2.trans hcpu
    · have hgpu : s.gpuOccupiedUntilFinishedSeqId ≤ s.coherentSeqId :=
        Nat.le_of_not_lt fun hlt => hw ⟨hwrite, hlt⟩
      exact (h.occupied u hu hua).elim id fun hk => hk.trans hgpu
  | renamable =>
    rw [ht] at ha
    cases hal : s.allocate s.coherentSeqId fresh with
    | mk next s₁ =>
      rw [hal] at ha
      cases ha
      obtain ⟨hwrite, hcpu⟩ := tryMap_renamable ht
      obtain ⟨hfree, hne, -, -, heq, hmem, hinv⟩ := h.allocate fresh hal
      have huses : s₁.uses = s.uses := by rw [heq]
      have hseq : s₁.coherentSeqId = s.coherentSeqId := by rw [heq]
      refine ⟨rfl, fun _ u hu huw => ?_, fun _ u hu hua => ?_, fun i hi => ?_⟩
      · show u.seqId ≤ s₁.coherentSeqId
        rw [hseq]
        exact (h.written u (huses ▸ hu) huw).elim id fun hk => hk.2.trans hcpu
      · show u.seqId ≤ s₁.coherentSeqId
        rw [hseq]
        exact hfree u (huses ▸ hu) hua
      · have hlen : s₁.length = s.length := by rw [heq]
        have hname : s₁.immediateName = s.immediateName := by rw [heq]
        have hcopy : (s₁.copyContents next s₁.immediateName).memory next i =
            s₁.memory s₁.immediateName i := by
          unfold copyContents
          dsimp only
          rw [Function.update_self, if_pos (hlen ▸ hi)]
        refine hcopy.trans ?_
        rw [hname, hmem]

/-- A map that has nothing to wait for returns memory. -/
theorem mapOnce_ready {read write doNotWait : Bool} {fresh : Nat → Byte} (hm : s.mapped = false)
    (hr : read = true → s.cpuCoherentAfterFinishedSeqId ≤ s.coherentSeqId)
    (hw : write = true → s.coherentSeqId < s.gpuOccupiedUntilFinishedSeqId →
      s.cpuCoherentAfterFinishedSeqId ≤ s.coherentSeqId) :
    ∃ a, (s.mapOnce read write doNotWait fresh).1 = .memory a := by
  have ht : s.tryMap s.coherentSeqId read write = .mappable ∨
      s.tryMap s.coherentSeqId read write = .renamable := by
    unfold tryMap
    rw [hm, if_neg Bool.false_ne_true,
      if_neg (fun h : read = true ∧ _ => Nat.not_lt.mpr (hr h.1) h.2)]
    by_cases hb : write = true ∧ s.coherentSeqId < s.gpuOccupiedUntilFinishedSeqId
    · rw [if_pos hb, if_pos (hw hb.1 hb.2)]
      exact Or.inr rfl
    · rw [if_neg hb]
      exact Or.inl rfl
  unfold mapOnce
  rcases ht with ht | ht <;> rw [ht] <;> exact ⟨_, rfl⟩

/-- `Flush` keeps the resource, and commits the chunk if it has a command. -/
theorem flush_spec (s : Staging Byte) :
    s.flush.mapped = s.mapped ∧
      s.flush.cpuCoherentAfterFinishedSeqId = s.cpuCoherentAfterFinishedSeqId ∧
      s.flush.gpuOccupiedUntilFinishedSeqId = s.gpuOccupiedUntilFinishedSeqId ∧
      s.currentSeqId ≤ s.flush.currentSeqId ∧
      (s.hasDirtyOpSinceLastEvent = true ∨ s.promoteFlush = true →
        s.currentSeqId < s.flush.currentSeqId) := by
  unfold flush
  split
  · exact ⟨rfl, rfl, rfl, Nat.le_succ _, fun _ => Nat.lt_succ_self _⟩
  · next hno =>
    refine ⟨rfl, rfl, rfl, Nat.le_refl _, fun hflag => absurd ?_ hno⟩
    rcases hflag with hflag | hflag <;> simp [hflag]

/-- The turn after a wait succeeds. -/
theorem Inv.mapOnce_after (h : Inv s) {read write doNotWait : Bool} {fresh : Nat → Byte} {n : Nat}
    (hn : s.mapOnce read write doNotWait fresh = (.wait n, s')) :
    n < s'.currentSeqId ∧ ∀ s₂, Relation.ReflTransGen GpuStep s' s₂ → n ≤ s₂.coherentSeqId →
      ∀ fresh', ∃ a, (s₂.mapOnce read write doNotWait fresh').1 = .memory a := by
  have hwait : s' = s.flush ∧
      ((n = s.cpuCoherentAfterFinishedSeqId ∨
        (read = false ∧ n = s.gpuOccupiedUntilFinishedSeqId))) := by
    unfold Staging.mapOnce at hn
    cases ht : s.tryMap s.coherentSeqId read write with
    | mapped =>
      rw [ht] at hn
      cases hn
    | mappable =>
      rw [ht] at hn
      cases hn
    | renamable =>
      rw [ht] at hn
      cases hn
    | wait remaining =>
      rw [ht] at hn
      dsimp only at hn
      split at hn
      · cases hn
      · cases hn
        exact ⟨rfl, tryMap_wait ht⟩
  obtain ⟨rfl, htarget⟩ := hwait
  obtain ⟨hm, hcpu, hgpu, hle, hlt⟩ := flush_spec s
  obtain ⟨hcpule, hgpule, hflag⟩ := h.flushed
  refine ⟨?_, fun s₂ hrun hn₂ fresh' => ?_⟩
  · -- a command in the current chunk makes `Flush` commit it
    have hcur : n = s.currentSeqId → s.currentSeqId < s.flush.currentSeqId := by
      intro heq
      refine hlt (hflag ?_)
      rcases htarget with ht | ⟨-, ht⟩
      · exact Or.inl (ht.symm.trans heq)
      · exact Or.inr (ht.symm.trans heq)
    have : n ≤ s.currentSeqId := by
      rcases htarget with ht | ⟨-, ht⟩ <;> omega
    by_cases heq : n = s.currentSeqId
    · exact heq ▸ hcur heq
    · omega
  · obtain ⟨heq, -⟩ := gpu_frame hrun
    have hm₂ : s₂.mapped = false := by rw [heq]; exact hm.trans h.mapped
    have hcpu₂ : s₂.cpuCoherentAfterFinishedSeqId = s.cpuCoherentAfterFinishedSeqId := by
      rw [heq]; exact hcpu
    have hgpu₂ : s₂.gpuOccupiedUntilFinishedSeqId = s.gpuOccupiedUntilFinishedSeqId := by
      rw [heq]; exact hgpu
    refine mapOnce_ready hm₂ (fun hr => ?_) fun _ hlt₂ => ?_
    · rcases htarget with ht | ⟨hr', -⟩
      · rw [hcpu₂]
        omega
      · exact absurd (hr.symm.trans hr') Bool.noConfusion
    · rcases htarget with ht | ⟨-, ht⟩
      · rw [hcpu₂]
        omega
      · rw [hgpu₂] at hlt₂
        omega

/-- A map for neither reading nor writing is refused. -/
theorem map_eq {mapType : Nat} {doNotWait : Bool} {fresh : Nat → Byte} {turn : MapTurn}
    (h : s.map mapType doNotWait fresh = (turn, s')) (hne : turn ≠ .invalidArg) :
    s.mapOnce (mapType.testBit 0) (mapType.testBit 1) doNotWait fresh = (turn, s') ∧
      (mapType.testBit 0 = true ∨ mapType.testBit 1 = true) ∧
      ∀ (s : Staging Byte) (fresh : Nat → Byte), s.map mapType doNotWait fresh =
        s.mapOnce (mapType.testBit 0) (mapType.testBit 1) doNotWait fresh := by
  unfold map at h ⊢
  by_cases hm : mapType > 3 ∨ mapType = 0
  · rw [if_pos hm] at h
    cases h
    exact absurd rfl hne
  · rw [if_neg hm] at h
    refine ⟨h, ?_, fun _ _ => if_neg hm⟩
    have hrange : mapType = 1 ∨ mapType = 2 ∨ mapType = 3 := by omega
    rcases hrange with rfl | rfl | rfl <;> decide

/-- **Staging resources are coherent.** A map that returns memory is safe, and while only the GPU
runs its contents do not change; an allocation is handed out only when nothing uses it any more; and
a map that waits, waits for a committed chunk and then returns memory. -/
theorem staging_coherent (h : Reachable s) (mapType : Nat) (doNotWait : Bool) (fresh : Nat → Byte) :
    (∀ a s', s.map mapType doNotWait fresh = (.memory a, s') →
      MapSafe s s' (mapType.testBit 0) (mapType.testBit 1) a ∧
      ∀ s₂, Relation.ReflTransGen GpuStep s' s₂ → s₂.memory a = s'.memory a) ∧
    (∀ a s', s.allocate s.coherentSeqId fresh = (a, s') → a ≠ s.immediateName ∧
      ∀ u ∈ s.uses, u.allocation = a → u.seqId ≤ s.coherentSeqId) ∧
    ∀ n s', s.map mapType doNotWait fresh = (.wait n, s') → n < s'.currentSeqId ∧
      ∀ s₂, Relation.ReflTransGen GpuStep s' s₂ → n ≤ s₂.coherentSeqId →
        ∀ fresh', ∃ a, (s₂.map mapType doNotWait fresh').1 = .memory a := by
  have hinv := inv_reachable h
  refine ⟨fun a s' ha => ?_, fun a s' ha => ?_, fun n s' hn => ?_⟩
  · obtain ⟨ha, hmode, -⟩ := map_eq ha (fun he => nomatch he)
    have hsafe := hinv.mapOnce_memory ha
    refine ⟨hsafe, fun s₂ hrun => gpu_memory hrun fun u hu hw hua => ?_⟩
    exact hmode.elim (fun hr => hsafe.read hr u hu hw) fun hw => hsafe.write hw u hu hua
  · obtain ⟨hfree, hne, -⟩ := hinv.allocate fresh ha
    exact ⟨hne, hfree⟩
  · obtain ⟨hn, -, hmap⟩ := map_eq hn (fun he => nomatch he)
    obtain ⟨hlt, hafter⟩ := hinv.mapOnce_after hn
    refine ⟨hlt, fun s₂ hrun hn₂ fresh' => ?_⟩
    rw [hmap]
    exact hafter s₂ hrun hn₂ fresh'

/-- A resource of four bytes that a copy reads. -/
def copied : Staging Nat := copyFrom { length := 4, memory := fun _ _ => 0 }

theorem reachable_copied : Reachable copied :=
  ⟨_, ⟨Nat.zero_lt_one, rfl, rfl, rfl, rfl, rfl, Nat.zero_lt_one⟩, .single .copyFrom⟩

/-- A map for writing, which renames the buffer. -/
theorem staging_coherent_copied :
    (copied.map 2 false fun _ => 0).1 = .memory 1 ∧
    (∀ a s', copied.map 2 false (fun _ => 0) = (.memory a, s') →
      MapSafe copied s' (Nat.testBit 2 0) (Nat.testBit 2 1) a ∧
      ∀ s₂, Relation.ReflTransGen GpuStep s' s₂ → s₂.memory a = s'.memory a) ∧
    (∀ a s', copied.allocate copied.coherentSeqId (fun _ => 0) = (a, s') →
      a ≠ copied.immediateName ∧
      ∀ u ∈ copied.uses, u.allocation = a → u.seqId ≤ copied.coherentSeqId) ∧
    ∀ n s', copied.map 2 false (fun _ => 0) = (.wait n, s') → n < s'.currentSeqId ∧
      ∀ s₂, Relation.ReflTransGen GpuStep s' s₂ → n ≤ s₂.coherentSeqId →
        ∀ fresh', ∃ a, (s₂.map 2 false fresh').1 = .memory a :=
  ⟨rfl, staging_coherent reachable_copied 2 false fun _ => 0⟩

end Staging

end Dxmt
