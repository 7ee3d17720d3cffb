import Dxmt.ResourceInitializer

/-!
# The upload heap of the initializer: `initWithData`

`initWithData` writes the data into a part of the ring that it is given for the chunk that is
filled, and the copy reads it when the GPU gets there. The initializer passes the ids of its chunks
and the last event value that it saw, in order, as `RingTrace.Allows` asks for, so the heap is
always in a state of a trace of allowed calls that hands out what the copies read, and no part is
given away before its copy (`uploads_apart`).

Source: `dxmt_resource_initializer.cpp`, `dxmt_ring_bump_allocator.hpp`.
-/

namespace Dxmt

namespace ResourceInitializer

variable {W A : Type} {L : CommandLayouts} {i i' : ResourceInitializer W A}

/-- The part of a block that a copy of the event value reads. -/
def upload? (id : Nat) : InitBlit W → Option Grant
  | .copyData _ src srcOffset length =>
    some ⟨id, src, srcOffset, length, kResourceInitializerGpuUploadHeapAlignment⟩
  | _ => none

/-- What the copies read, newest first. -/
def uploads (i : ResourceInitializer W A) : List Grant :=
  ((i.submitted.zipIdx 1).flatMap (fun p => p.1.blits.filterMap (upload? p.2)) ++
    i.blits.filterMap (upload? i.currentSeqId)).reverse

theorem alignment_uploads {g : Grant} (h : g ∈ i.uploads) :
    g.alignment = kResourceInitializerGpuUploadHeapAlignment := by
  have hblit : ∀ {id : Nat} {blits : List (InitBlit W)}, g ∈ blits.filterMap (upload? id) →
      g.alignment = kResourceInitializerGpuUploadHeapAlignment := by
    intro id blits hmem
    obtain ⟨blit, -, hupload⟩ := List.mem_filterMap.mp hmem
    cases blit with
    | copyData target src srcOffset length => exact Option.some.inj hupload ▸ rfl
    | _ => cases hupload
  obtain hmem | hmem := List.mem_append.mp (List.mem_reverse.mp h)
  · obtain ⟨p, -, hmem⟩ := List.mem_flatMap.mp hmem
    exact hblit hmem
  · exact hblit hmem

/-- Later ids. -/
theorem ringInv_mono {state : RingBumpState} {grants : List Grant} {seqId seqId' coherentId
    coherentId' : Nat} (h : RingInv ⟨state, grants, seqId, coherentId⟩) (hseq : seqId ≤ seqId')
    (hcoherent : coherentId ≤ coherentId') : RingInv ⟨state, grants, seqId', coherentId'⟩ where
  fifo := ⟨h.fifo.total, h.fifo.fresh, h.fifo.nodup, fun g hg hlive =>
    h.fifo.live g hg (hcoherent.trans_lt hlive)⟩
  grants := ⟨h.grants.inside, h.grants.known, fun g hg => (h.grants.seq g hg).trans hseq,
    h.grants.apart.imp fun hp hid hlive => hp hid (hcoherent.trans_lt hlive)⟩

/-- The state comes from calls that the ring allows, with ids up to these, and the grants are what
they returned. -/
def RingUsed (state : RingBumpState) (grants : List Grant) (seqId coherentId : Nat) : Prop :=
  ∃ trace, RingTrace.Reachable kResourceInitializerGpuUploadHeapSize trace ∧ trace.state = state ∧
    trace.grants = grants ∧ trace.seqId ≤ seqId ∧ trace.coherentId ≤ coherentId

namespace RingUsed

variable {state : RingBumpState} {grants : List Grant} {seqId coherentId : Nat}

theorem mono (h : RingUsed state grants seqId coherentId) {seqId' coherentId' : Nat}
    (hseq : seqId ≤ seqId') (hcoherent : coherentId ≤ coherentId') :
    RingUsed state grants seqId' coherentId' := by
  obtain ⟨trace, hreach, hstate, hgrants, hle, hle'⟩ := h
  exact ⟨trace, hreach, hstate, hgrants, hle.trans hseq, hle'.trans hcoherent⟩

/-- A grant is in use until its sequence is done. -/
theorem allocate (h : RingUsed state grants seqId coherentId) (hlt : coherentId < seqId)
    (size k : Nat) :
    let (state', block, offset) :=
      state.allocate kResourceInitializerGpuUploadHeapSize seqId coherentId size (2 ^ k)
    RingUsed state' (⟨seqId, block, offset, size, 2 ^ k⟩ :: grants) seqId coherentId := by
  obtain ⟨trace, hreach, rfl, rfl, hle, hle'⟩ := h
  exact ⟨_, hreach.step trace (.allocate seqId coherentId size (2 ^ k)) ⟨hle, hle', hlt, k, rfl⟩,
    rfl, rfl, le_rfl, le_rfl⟩

/-- What is freed is not in use. -/
theorem freeBlocks (h : RingUsed state grants seqId coherentId) {coherentId' : Nat}
    (hcoherent : coherentId ≤ coherentId') :
    RingUsed (state.freeBlocks kResourceInitializerGpuUploadHeapSize coherentId') grants seqId
      coherentId' := by
  obtain ⟨trace, hreach, rfl, rfl, hle, hle'⟩ := h
  exact ⟨_, hreach.step trace (.freeBlocks coherentId') (hle'.trans hcoherent), rfl, rfl, hle,
      le_rfl⟩

/-- What is in use keeps the ring's invariant. -/
theorem inv (h : RingUsed state grants seqId coherentId) :
    RingInv ⟨state, grants, seqId, coherentId⟩ := by
  obtain ⟨trace, hreach, rfl, rfl, hle, hle'⟩ := h
  exact ringInv_mono (ringInv_reachable hreach) hle hle'

end RingUsed

/-- The calls on the upload heap meet its conditions. -/
structure UploadInv (i : ResourceInitializer W A) : Prop where
  seq : i.submitted.length + 1 = i.currentSeqId
  coherent : i.cachedCoherentSeqId ≤ i.signaledValue
  signaled : i.signaledValue ≤ i.submitted.length
  ring : RingUsed i.gpuCommandHeap i.uploads i.currentSeqId i.cachedCoherentSeqId

/-- Commands that read no data to upload. -/
theorem UploadInv.append (h : UploadInv i) {blits : List (InitBlit W)}
    (hsubmitted : i'.submitted = i.submitted) (hseq : i'.currentSeqId = i.currentSeqId)
    (hle : i.cachedCoherentSeqId ≤ i'.cachedCoherentSeqId)
    (hvalues : i'.cachedCoherentSeqId ≤ i'.signaledValue ∧ i'.signaledValue ≤ i'.submitted.length)
    (hheap : i'.gpuCommandHeap = i.gpuCommandHeap) (hblits : i'.blits = i.blits ++ blits)
    (hnone : blits.filterMap (upload? i.currentSeqId) = []) : UploadInv i' where
  seq := by rw [hsubmitted, hseq]; exact h.seq
  coherent := hvalues.1
  signaled := hvalues.2
  ring := by
    have huploads : i'.uploads = i.uploads := by
      unfold uploads
      rw [hsubmitted, hseq, hblits, List.filterMap_append, hnone, List.append_nil]
    rw [hheap, huploads, hseq]
    exact h.ring.mono le_rfl hle

theorem UploadInv.same (h : UploadInv i) (hsubmitted : i'.submitted = i.submitted)
    (hseq : i'.currentSeqId = i.currentSeqId) (hle : i.cachedCoherentSeqId ≤ i'.cachedCoherentSeqId)
    (hvalues : i'.cachedCoherentSeqId ≤ i'.signaledValue ∧ i'.signaledValue ≤ i'.submitted.length)
    (hheap : i'.gpuCommandHeap = i.gpuCommandHeap) (hblits : i'.blits = i.blits) : UploadInv i' :=
  h.append hsubmitted hseq hle hvalues hheap (hblits.trans (List.append_nil _).symm) rfl

theorem UploadInv.values (h : UploadInv i) :
    i.cachedCoherentSeqId ≤ i.signaledValue ∧ i.signaledValue ≤ i.submitted.length :=
  ⟨h.coherent, h.signaled⟩

theorem UploadInv.freeBlocks (h : UploadInv i) {coherentId : Nat}
    (hle : i.cachedCoherentSeqId ≤ coherentId) (hcoherent : coherentId ≤ i.signaledValue) :
    UploadInv { i with
      cachedCoherentSeqId := coherentId
      gpuCommandHeap :=
        i.gpuCommandHeap.freeBlocks kResourceInitializerGpuUploadHeapSize coherentId } where
  seq := h.seq
  coherent := hcoherent
  signaled := h.signaled
  ring := h.ring.freeBlocks hle

theorem uploads_flushInternal (hseq : i.submitted.length + 1 = i.currentSeqId) :
    i.flushInternal.uploads = i.uploads := by
  unfold uploads
  change (((i.submitted ++ [i.encode]).zipIdx 1).flatMap _ ++ []).reverse = _
  rw [List.append_nil, List.zipIdx_append, List.flatMap_append, Nat.add_comm 1, hseq]
  simp only [List.zipIdx_singleton, List.flatMap_singleton]
  rfl

/-- A flush keeps the invariant. -/
theorem UploadInv.flushInternal (h : UploadInv i) : UploadInv i.flushInternal where
  seq := by
    change (i.submitted ++ [i.encode]).length + 1 = i.currentSeqId + 1
    rw [List.length_append, List.length_singleton, h.seq]
  coherent := le_rfl
  signaled := by
    refine h.signaled.trans ?_
    change _ ≤ (i.submitted ++ [i.encode]).length
    rw [List.length_append]
    exact Nat.le_add_right _ _
  ring := by
    rw [uploads_flushInternal h.seq]
    exact (h.ring.freeBlocks h.coherent).mono (Nat.le_succ _) le_rfl

theorem retainAllocation_uploads (h : UploadInv i) (allocation : A) :
    Spec (i.retainAllocation L allocation) UploadInv UploadInv := by
  refine (retainAllocation_spec i allocation).mono ?_ fun i' heq => heq ▸ h
  rintro i' ⟨offset, tracked, refsLeft, rfl⟩
  exact h.same rfl rfl le_rfl h.values rfl rfl

theorem allocateBlit_uploads (h : UploadInv i) (l : TypeLayout) (blit : InitBlit W)
    (hnone : ∀ id, upload? id blit = none) : Spec (i.allocateBlit l blit) UploadInv UploadInv := by
  refine (allocateBlit_spec i l blit).mono ?_ fun i' heq => heq ▸ h
  rintro i' ⟨offset, rfl⟩
  exact h.append rfl rfl le_rfl h.values rfl rfl (List.filterMap_cons_none (hnone _))

theorem allocateClear_uploads (h : UploadInv i) (clear : ClearPass W) :
    Spec (i.allocateClear L clear) UploadInv UploadInv := by
  refine (allocateClear_spec i clear).mono ?_ fun i' heq => heq ▸ h
  rintro i' ⟨offset, rfl⟩
  exact h.same rfl rfl le_rfl h.values rfl rfl

/-- The zero buffer is not in the ring. -/
theorem allocateZeroBuffer_uploads (h : UploadInv i) (size : Nat) :
    Spec (i.allocateZeroBuffer L size) UploadInv UploadInv := by
  unfold allocateZeroBuffer
  split
  · split
    · exact h.flushInternal.same rfl rfl le_rfl h.flushInternal.values rfl rfl
    · have hfill := allocateBlit_uploads h L.fillBuffer
        (.fillZeroBuffer (i.zeroBuffer + 1) size) fun _ => rfl
      cases hresult : i.allocateBlit L.fillBuffer (.fillZeroBuffer (i.zeroBuffer + 1) size) with
      | ok i' =>
        rw [hresult] at hfill
        have hinv : UploadInv i' := hfill
        exact hinv.same rfl rfl le_rfl hinv.values rfl rfl
      | error i' =>
        rw [hresult] at hfill
        exact hfill
  · exact h

/-- A copy reads the part that the heap handed out for it. -/
theorem initWithData_uploads (h : UploadInv i) (target : W) (l : TypeLayout) (size : Nat) :
    let (heap, block, offset) := i.gpuCommandHeap.allocate kResourceInitializerGpuUploadHeapSize
      i.currentSeqId i.cachedCoherentSeqId size kResourceInitializerGpuUploadHeapAlignment
    Spec (i.allocateBlit l (.copyData target block offset size))
      (fun i' => UploadInv { i' with gpuCommandHeap := heap }) UploadInv := by
  have hlt : i.cachedCoherentSeqId < i.currentSeqId :=
    h.seq ▸ Nat.lt_succ_of_le (h.coherent.trans h.signaled)
  have hring := h.ring.allocate hlt size 8
  dsimp only
  refine (allocateBlit_spec i l _).mono ?_ fun i' heq => heq ▸ h
  rintro i' ⟨offset, rfl⟩
  refine ⟨h.seq, h.coherent, h.signaled, ?_⟩
  have huploads : ∀ block offset, uploads { i with blits := i.blits ++
      [.copyData target block offset
      size] } = ⟨i.currentSeqId, block, offset, size, 2 ^ 8⟩ :: i.uploads := by
    intro block offset
    unfold uploads
    dsimp only
    rw [List.filterMap_append, ← List.append_assoc, List.reverse_append]
    rfl
  change RingUsed _ (uploads { i with blits := i.blits ++ [_] }) _ _
  rw [huploads]
  exact hring

/-- A call keeps the invariant. -/
theorem initCall_uploads (h : UploadInv i) (call : InitCall W A) :
    Spec (i.initCall L call) UploadInv UploadInv := by
  have hdepth : ∀ target allocation,
      Spec (i.initDepthStencilWithZero L target allocation) UploadInv UploadInv :=
    fun target allocation =>
      (retainAllocation_uploads h allocation).bind fun i' h' => allocateClear_uploads h' _
  have hcolor : ∀ target allocation texture,
      Spec (i.initRenderTargetWithZero L target allocation texture) UploadInv UploadInv :=
    fun target allocation texture =>
      (retainAllocation_uploads h allocation).bind fun i' h' => allocateClear_uploads h' _
  cases call with
  | initBufferWithZero target buffer =>
    exact (retainAllocation_uploads h buffer).bind fun i' h' =>
      allocateBlit_uploads h' _ _ fun _ => rfl
  | initDepthStencilWithZero target allocation => exact hdepth target allocation
  | initRenderTargetWithZero target allocation texture => exact hcolor target allocation texture
  | initWithZero target allocation texture level =>
    unfold initCall
    dsimp only
    split
    · exact hdepth target allocation
    split
    · exact hcolor target allocation texture
    refine (allocateZeroBuffer_uploads h _).bind fun i₁ h₁ => ?_
    exact (retainAllocation_uploads h₁ allocation).bind fun i₂ h₂ =>
      allocateBlit_uploads h₂ _ _ fun _ => rfl
  | initWithData target allocation texture level =>
    refine (retainAllocation_uploads h allocation).bind fun i' h' => ?_
    exact Spec.bind (initWithData_uploads h' target _ _) fun _ h'' => h''

theorem UploadInv.flushToWait (h : UploadInv i) : UploadInv i.flushToWait.1 := by
  have hfree := h.freeBlocks le_rfl h.coherent
  unfold ResourceInitializer.flushToWait
  split
  · dsimp only
    split
    · exact hfree
    · split <;> exact hfree.same rfl rfl h.coherent ⟨le_rfl, h.signaled⟩ rfl rfl
  · exact h.flushInternal

end ResourceInitializer

namespace InitSystem

open ResourceInitializer

variable {W A : Type} {L : CommandLayouts} {s s' : InitSystem W A}

/-- An event keeps the invariant. -/
theorem UploadInv.step {e : InitEvent W A} (h : UploadInv s.initializer)
    (hs : s.step L e = some s') : UploadInv s'.initializer := by
  cases e with
  | call call =>
    rw [InitSystem.step] at hs
    split at hs
    next =>
      have hspec := initCall_uploads (L := L) h call
      split at hs
      next i hcall =>
        obtain rfl := Option.some.inj hs
        rw [hcall] at hspec
        exact hspec
      next i hcall =>
        obtain rfl := Option.some.inj hs
        rw [hcall] at hspec
        have hinv : UploadInv i := hspec
        exact hinv.flushInternal
    next => cases hs
  | flushToWait =>
    obtain rfl := Option.some.inj hs
    exact h.flushToWait
  | execute =>
    rw [InitSystem.step] at hs
    split at hs
    next hlt =>
      obtain rfl := Option.some.inj hs
      exact h.same rfl rfl le_rfl ⟨h.coherent.trans (Nat.le_succ _), hlt⟩ rfl rfl
    next => cases hs

/-- The invariant holds in every state of every run. -/
theorem Reachable.uploadInv (h : Reachable L s) : UploadInv s.initializer := by
  induction h with
  | create =>
    exact ⟨rfl, le_rfl, le_rfl, .init, RingTrace.Reachable.init, rfl, rfl, Nat.zero_le _, le_rfl⟩
  | step _ hs ih => exact UploadInv.step ih hs

/-- **Data is not overwritten before its copy.** The part of a block that a copy reads is inside the
block and aligned, and no later copy is given a part that overlaps it until the copy is executed.
The heap is only used as the ring allows: its state is one of a trace of allowed calls, with ids up
to the current ones, and the copies read what these calls returned. -/
theorem uploads_apart (h : Reachable L s) :
    (∀ g ∈ s.initializer.uploads, g.offset + g.size ≤ g.block.size ∧
      kResourceInitializerGpuUploadHeapAlignment ∣ g.offset) ∧
    (s.initializer.uploads.Pairwise fun later g =>
      s.initializer.signaledValue < g.seqId → later.block = g.block → later.Apart g) ∧
    RingUsed s.initializer.gpuCommandHeap s.initializer.uploads s.initializer.currentSeqId
      s.initializer.cachedCoherentSeqId := by
  have hinv := h.uploadInv
  have hring := hinv.ring.inv
  refine ⟨fun g hg => ?_, hring.grants.apart.imp fun hp hlive hblock => ?_, hinv.ring⟩
  · obtain ⟨hinside, haligned⟩ := hring.grants.inside g hg
    exact ⟨hinside, alignment_uploads hg ▸ haligned⟩
  · exact hp (congrArg Block.id hblock) (hinv.coherent.trans_lt hlive)

/-- Two textures with data in one chunk, and one in the next. -/
def threeUploads : List (InitEvent Nat Nat) :=
  [.call (.initWithData 0 0 colorTexture 0), .call (.initWithData 1 1 colorTexture 0), .flushToWait,
    .call (.initWithData 2 2 colorTexture 0)]

theorem uploads_apart_threeUploads : ∃ s : InitSystem Nat Nat, s.lost = [] ∧
    s.initializer.uploads.map (·.seqId) = [2, 1, 1] ∧
    (∀ g ∈ s.initializer.uploads, g.offset + g.size ≤ g.block.size ∧
      kResourceInitializerGpuUploadHeapAlignment ∣ g.offset) ∧
    (s.initializer.uploads.Pairwise fun later g =>
      s.initializer.signaledValue < g.seqId → later.block = g.block → later.Apart g) ∧
    RingUsed s.initializer.gpuCommandHeap s.initializer.uploads s.initializer.currentSeqId
      s.initializer.cachedCoherentSeqId := by
  have hrun : ({} : InitSystem Nat Nat).run exampleLayouts threeUploads = some _ := rfl
  exact ⟨_, rfl, rfl, uploads_apart (Reachable.create.run hrun)⟩

end InitSystem

end Dxmt
