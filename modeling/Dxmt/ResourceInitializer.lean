import Dxmt.RingBump

/-!
# The resource initializer: `initWithZero`, `initWithData`, `flushInternal`

The first contents of buffers and textures are written by command buffers of a queue of their own.
Their commands lie in a heap of 1 MB that is reset by each flush, and a chunk that is committed
waits for the event value that `flushToWait` returns. A call that finds no room flushes and does not
try again: the `continue` in its `do … while (0)` leaves the loop.

Every function takes `mutex_`, so a call is one step, and the GPU executes the command buffers in
order. `newBuffer` succeeds. What a subresource is given is a parameter, with the data to upload;
the part of the upload heap that a copy reads is in `Dxmt.UploadHeap`.

A texture that needs more zeros than the zero buffer has is not cleared (`step_growZeros`), and
neither is what finds the heap full. All others have their contents when the chunk that was
committed behind them runs (`initialized_after_wait`).

Source: `dxmt_resource_initializer.cpp`, `dxmt_allocation.cpp`.
-/

namespace Dxmt

/-- `kResourceInitializerCpuCommandHeapSize`. -/
def kResourceInitializerCpuCommandHeapSize : Nat := 0x100000

/-- Bytes of the upload heap. -/
def kResourceInitializerGpuUploadHeapSize : Nat := 0x2000000

/-- The alignment of what is uploaded. -/
def kResourceInitializerGpuUploadHeapAlignment : Nat := 256

/-- The entries of a `RefAddChunk`, placed or in `0x20` words of the heap. -/
def refAddChunkCapacity : Nat := 29

/-- `align_forward_adjustment`; `x & -alignment` is `x` without `x & (alignment - 1)`. -/
def alignForwardAdjustment (ptr alignment : Nat) : Nat :=
  let x := ptr + alignment - 1
  x - (x &&& (alignment - 1)) - ptr

/-- `sizeof` and `alignof`. -/
structure TypeLayout where
  size : Nat
  alignment : Nat

/-- The types that the heap holds. -/
structure CommandLayouts where
  fillBuffer : TypeLayout
  copyFromBufferToTexture : TypeLayout
  clearRenderPassInfo : TypeLayout
  refAddChunk : TypeLayout

/-- What the initializer reads of a texture. -/
structure InitTexture where
  width : Nat
  height : Nat
  depth : Nat
  texelSize : Nat
  /-- 4 for the formats with compressed blocks. -/
  blockSize : Nat
  depthStencil : Bool
  /-- `usage()` allows a render target. This stands for the `usage()` of the Metal texture as well,
  which `encode` looks at: the texture is created with the usage that it was asked for. -/
  renderTarget : Bool

/-- `total_bytes_needed`. -/
def InitTexture.totalBytesNeeded (t : InitTexture) (level : Nat) : Nat :=
  let widthSub := max 1 (t.width >>> level)
  let heightSub := max 1 (t.height >>> level)
  let depthSub := max 1 (t.depth >>> level)
  let bytesPerRowNeeded := t.texelSize * align widthSub t.blockSize / t.blockSize
  let bytesPerImageNeeded := bytesPerRowNeeded * align heightSub t.blockSize / t.blockSize
  bytesPerImageNeeded * depthSub

/-- A render pass that clears, and whether its colour attachment is a render target or null. -/
structure ClearPass (W : Type) where
  target : W
  valid : Bool

/-- A command of the blit list: what it fills or copies, and from where. -/
inductive InitBlit (W : Type) where
  | fillBuffer (target : W)
  | fillZeroBuffer (buffer length : Nat)
  | copyZero (target : W) (buffer length : Nat)
  | copyData (target : W) (src : Block) (srcOffset length : Nat)

/-- What the command initializes; filling the zero buffer initializes nothing. -/
def InitBlit.target? {W : Type} : InitBlit W → Option W
  | .fillBuffer target => some target
  | .fillZeroBuffer _ _ => none
  | .copyZero target _ _ => some target
  | .copyData target _ _ _ => some target

/-- What one flush encodes: the clears, then the blits. -/
structure InitCommandBuffer (W : Type) where
  clears : List W
  blits : List (InitBlit W)

/-- What the commands are to write. -/
def InitCommandBuffer.targets {W : Type} (buffer : InitCommandBuffer W) : List W :=
  buffer.clears ++ buffer.blits.filterMap InitBlit.target?

/-- The initializer, what it has committed and how many command buffers the GPU has executed. -/
structure ResourceInitializer (W A : Type) where
  currentSeqId : Nat := 1
  cachedCoherentSeqId : Nat := 0
  cpuCommandHeapOffset : Nat := 0
  blits : List (InitBlit W) := []
  clears : List (ClearPass W) := []
  tracked : List A := []
  /-- The free entries of `chunk_last`. -/
  refsLeft : Nat := refAddChunkCapacity
  zeroBuffer : Nat := 0
  zeroBufferSize : Nat := 0
  gpuCommandHeap : RingBumpState := ⟨[], 0⟩
  submitted : List (InitCommandBuffer W) := []
  signaledValue : Nat := 0

namespace ResourceInitializer

variable {W A : Type} (L : CommandLayouts) (s : ResourceInitializer W A)

/-- `encode`: a clear whose attachment is no render target is left out. -/
def encode : InitCommandBuffer W where
  clears := (s.clears.filter (·.valid)).map (·.target)
  blits := s.blits

/-- `reset`: the lists and the heaps are empty again. -/
def reset : ResourceInitializer W A :=
  { s with
    cpuCommandHeapOffset := 0
    clears := []
    blits := []
    tracked := []
    refsLeft := refAddChunkCapacity }

/-- `flushInternal`: encodes what is waiting and signals the next value. -/
def flushInternal : ResourceInitializer W A :=
  { s.reset with
    currentSeqId := s.currentSeqId + 1
    submitted := s.submitted ++ [s.encode]
    cachedCoherentSeqId := s.signaledValue
    gpuCommandHeap :=
      s.gpuCommandHeap.freeBlocks kResourceInitializerGpuUploadHeapSize s.signaledValue }

/-- Nothing is waiting. -/
def idle : Bool := s.blits.isEmpty && s.clears.isEmpty

/-- `flushToWait`: the state, and the event value to wait for. -/
def flushToWait : ResourceInitializer W A × Nat :=
  if s.idle then
    let s := { s with
      gpuCommandHeap :=
        s.gpuCommandHeap.freeBlocks kResourceInitializerGpuUploadHeapSize s.cachedCoherentSeqId }
    if s.cachedCoherentSeqId = s.currentSeqId - 1 then (s, 0)
    else
      let s := { s with cachedCoherentSeqId := s.signaledValue }
      if s.cachedCoherentSeqId = s.currentSeqId - 1 then (s, 0) else (s, s.currentSeqId - 1)
  else (s.flushInternal, s.currentSeqId)

/-- `allocate_cpu_heap`: none where the heap is full. -/
def allocateCpuHeap (l : TypeLayout) : Option (ResourceInitializer W A) :=
  let aligned := s.cpuCommandHeapOffset + alignForwardAdjustment s.cpuCommandHeapOffset l.alignment
  if kResourceInitializerCpuCommandHeapSize < aligned + l.size then none
  else some { s with cpuCommandHeapOffset := aligned + l.size }

/-- Without room, the state that is flushed. -/
def allocateBlit (l : TypeLayout) (blit : InitBlit W) :
    Except (ResourceInitializer W A) (ResourceInitializer W A) :=
  match s.allocateCpuHeap l with
  | some s => .ok { s with blits := s.blits ++ [blit] }
  | none => .error s

/-- A clear pass on the heap; a full heap gives back the state. -/
def allocateClear (clear : ClearPass W) :
    Except (ResourceInitializer W A) (ResourceInitializer W A) :=
  match s.allocateCpuHeap L.clearRenderPassInfo with
  | some s => .ok { s with clears := s.clears ++ [clear] }
  | none => .error s

/-- `track`, when there is an entry left. -/
def track (allocation : A) : ResourceInitializer W A :=
  { s with tracked := s.tracked ++ [allocation], refsLeft := s.refsLeft - 1 }

/-- `retainAllocation`: one reference, in chunks from the heap. -/
def retainAllocation (allocation : A) :
    Except (ResourceInitializer W A) (ResourceInitializer W A) :=
  if s.refsLeft = 0 then
    match s.allocateCpuHeap L.refAddChunk with
    | some s => .ok ({ s with refsLeft := refAddChunkCapacity }.track allocation)
    | none => .error s
  else .ok (s.track allocation)

/-- `allocateZeroBuffer`: one buffer of zeros, grown only between two flushes. -/
def allocateZeroBuffer (size : Nat) :
    Except (ResourceInitializer W A) (ResourceInitializer W A) :=
  if s.zeroBufferSize < size then
    if s.zeroBufferSize ≠ 0 then .error { s.flushInternal with zeroBufferSize := 0 }
    else
      match s.allocateBlit L.fillBuffer (.fillZeroBuffer (s.zeroBuffer + 1) size) with
      | .ok s => .ok { s with zeroBuffer := s.zeroBuffer + 1, zeroBufferSize := size }
      | .error s => .error s
  else .ok s

/-- The four calls that initialize. -/
inductive InitCall (W A : Type) where
  | initBufferWithZero (target : W) (buffer : A)
  | initDepthStencilWithZero (target : W) (allocation : A)
  | initRenderTargetWithZero (target : W) (allocation : A) (texture : InitTexture)
  | initWithZero (target : W) (allocation : A) (texture : InitTexture) (level : Nat)
  | initWithData (target : W) (allocation : A) (texture : InitTexture) (level : Nat)

/-- What the call initializes. -/
def InitCall.target : InitCall W A → W
  | initBufferWithZero w _ => w
  | initDepthStencilWithZero w _ => w
  | initRenderTargetWithZero w _ _ => w
  | initWithZero w _ _ _ => w
  | initWithData w _ _ _ => w

/-- `initDepthStencilWithZero`: a clear. -/
def initDepthStencilWithZero (target : W) (allocation : A) :
    Except (ResourceInitializer W A) (ResourceInitializer W A) := do
  let s ← s.retainAllocation L allocation
  s.allocateClear L { target, valid := true }

/-- `initRenderTargetWithZero`: a clear, which `encode` drops for a texture that is no render
target. -/
def initRenderTargetWithZero (target : W) (allocation : A) (texture : InitTexture) :
    Except (ResourceInitializer W A) (ResourceInitializer W A) := do
  let s ← s.retainAllocation L allocation
  s.allocateClear L { target, valid := texture.renderTarget }

/-- The body of a call; an error is the state in which it is given up. -/
def initCall : InitCall W A → Except (ResourceInitializer W A) (ResourceInitializer W A)
  | .initBufferWithZero target buffer => do
    let s ← s.retainAllocation L buffer
    s.allocateBlit L.fillBuffer (.fillBuffer target)
  | .initDepthStencilWithZero target allocation => s.initDepthStencilWithZero L target allocation
  | .initRenderTargetWithZero target allocation texture =>
    s.initRenderTargetWithZero L target allocation texture
  | .initWithZero target allocation texture level =>
    if texture.depthStencil then s.initDepthStencilWithZero L target allocation
    else if texture.renderTarget then s.initRenderTargetWithZero L target allocation texture
    else do
      let size := texture.totalBytesNeeded level
      let s ← s.allocateZeroBuffer L size
      let s ← s.retainAllocation L allocation
      s.allocateBlit L.copyFromBufferToTexture (.copyZero target s.zeroBuffer size)
  | .initWithData target allocation texture level => do
    let s ← s.retainAllocation L allocation
    let size := texture.totalBytesNeeded level
    let (heap, block, offset) := s.gpuCommandHeap.allocate kResourceInitializerGpuUploadHeapSize
      s.currentSeqId s.cachedCoherentSeqId size kResourceInitializerGpuUploadHeapAlignment
    let s ← s.allocateBlit L.copyFromBufferToTexture (.copyData target block offset size)
    return { s with gpuCommandHeap := heap }

/-- The callers look at the usage before. -/
def InitCall.allowed : InitCall W A → Bool
  | initRenderTargetWithZero _ _ texture => texture.renderTarget
  | _ => true

/-! ## What the GPU does -/

/-- What is written, when `zeros` is how far each buffer holds zeros. -/
def contents (zeros : Nat → Nat) : List (InitBlit W) → List W
  | [] => []
  | .fillBuffer target :: blits => target :: contents zeros blits
  | .fillZeroBuffer buffer length :: blits => contents (Function.update zeros buffer length) blits
  | .copyZero target buffer length :: blits =>
    if length ≤ zeros buffer then target :: contents zeros blits else contents zeros blits
  | .copyData target _ _ _ :: blits => target :: contents zeros blits

/-- What has its first contents. -/
def initialized : List W :=
  let executed := s.submitted.take s.signaledValue
  executed.flatMap (·.clears) ++ contents (fun _ => 0) (executed.flatMap (·.blits))

end ResourceInitializer

/-! ## Runs -/

/-- The initializer, what the calls that found room are to write, each with the event value that it
returned, and what the other calls were to write. -/
structure InitSystem (W A : Type) where
  initializer : ResourceInitializer W A := {}
  taken : List (W × Nat) := []
  lost : List W := []

/-- What the initializer and the GPU can do next. -/
inductive InitEvent (W A : Type) where
  | call (call : ResourceInitializer.InitCall W A)
  | flushToWait
  | execute

namespace InitSystem

variable {W A : Type} (L : CommandLayouts) (s : InitSystem W A)

/-- One event, where it is possible. -/
def step : InitEvent W A → Option (InitSystem W A)
  | .call call =>
    if call.allowed then
      match s.initializer.initCall L call with
      | .ok i => some { s with
          initializer := i, taken := s.taken ++ [(call.target, i.currentSeqId)] }
      | .error i => some { s with
          initializer := i.flushInternal, lost := s.lost ++ [call.target] }
    else none
  | .flushToWait => some { s with initializer := s.initializer.flushToWait.1 }
  | .execute =>
    if s.initializer.signaledValue < s.initializer.submitted.length then
      some { s with initializer.signaledValue := s.initializer.signaledValue + 1 }
    else none

/-- A run of events. -/
def run (events : List (InitEvent W A)) : Option (InitSystem W A) := events.foldlM (step L) s

/-- The states of all runs. -/
inductive Reachable : InitSystem W A → Prop where
  | create : Reachable {}
  | step {s s' : InitSystem W A} {e : InitEvent W A} (h : Reachable s) (hs : s.step L e = some s') :
      Reachable s'

end InitSystem

/-! ## What the initializer keeps -/

namespace ResourceInitializer

variable {W A : Type} {L : CommandLayouts} {i i' : ResourceInitializer W A}

/-- How far each buffer holds zeros. -/
def zerosAfter (zeros : Nat → Nat) : List (InitBlit W) → Nat → Nat
  | [] => zeros
  | .fillZeroBuffer buffer length :: blits => zerosAfter (Function.update zeros buffer length) blits
  | _ :: blits => zerosAfter zeros blits

/-- No copy reads beyond the zeros. -/
def Zeroed (zeros : Nat → Nat) : List (InitBlit W) → Prop
  | [] => True
  | .fillZeroBuffer buffer length :: blits => Zeroed (Function.update zeros buffer length) blits
  | .copyZero _ buffer length :: blits => length ≤ zeros buffer ∧ Zeroed zeros blits
  | _ :: blits => Zeroed zeros blits

theorem zerosAfter_append (zeros : Nat → Nat) (blits blits' : List (InitBlit W)) :
    zerosAfter zeros (blits ++ blits') = zerosAfter (zerosAfter zeros blits) blits' := by
  induction blits generalizing zeros with
  | nil => rfl
  | cons blit blits ih => cases blit <;> exact ih _

theorem zeroed_append {zeros : Nat → Nat} {blits blits' : List (InitBlit W)} :
    Zeroed zeros (blits ++ blits') ↔
      Zeroed zeros blits ∧ Zeroed (zerosAfter zeros blits) blits' := by
  induction blits generalizing zeros with
  | nil => exact (iff_of_eq (true_and _)).symm
  | cons blit blits ih =>
    cases blit with
    | copyZero target buffer length => exact (and_congr_right fun _ => ih).trans and_assoc.symm
    | fillBuffer target => exact ih
    | fillZeroBuffer buffer length => exact ih
    | copyData target src srcOffset length => exact ih

/-- Then every copy writes its target. -/
theorem contents_of_zeroed {zeros : Nat → Nat} {blits : List (InitBlit W)}
    (h : Zeroed zeros blits) :
    contents zeros blits = blits.filterMap InitBlit.target? := by
  induction blits generalizing zeros with
  | nil => rfl
  | cons blit blits ih =>
    cases blit with
    | copyZero target buffer length =>
      rw [contents, if_pos h.1, ih h.2]
      rfl
    | fillBuffer target => exact congrArg (target :: ·) (ih h)
    | fillZeroBuffer buffer length => exact ih h
    | copyData target src srcOffset length => exact congrArg (target :: ·) (ih h)

/-- All blits in the order in which they are executed. -/
def stream (i : ResourceInitializer W A) : List (InitBlit W) :=
  i.submitted.flatMap (·.blits) ++ i.blits

/-- What holds of the initializer in every run. -/
structure Inv (i : ResourceInitializer W A) : Prop where
  seq : i.submitted.length + 1 = i.currentSeqId
  coherent : i.cachedCoherentSeqId ≤ i.signaledValue
  signaled : i.signaledValue ≤ i.submitted.length
  zeroed : Zeroed (fun _ => 0) i.stream
  zeros : i.zeroBufferSize ≠ 0 → i.zeroBufferSize ≤ zerosAfter (fun _ => 0) i.stream i.zeroBuffer

theorem Inv.values (h : Inv i) :
    i.cachedCoherentSeqId ≤ i.signaledValue ∧ i.signaledValue ≤ i.submitted.length :=
  ⟨h.coherent, h.signaled⟩

/-- The command buffer of the event value writes the target. -/
def Given (i : ResourceInitializer W A) (target : W) (id : Nat) : Prop :=
  0 < id ∧ ∃ buffer, (i.submitted ++ [i.encode])[id - 1]? = some buffer ∧ target ∈ buffer.targets

/-- A part of a call: which targets it adds. -/
structure Moves (i i' : ResourceInitializer W A) (added : List W) : Prop where
  inv : Inv i → Inv i'
  signaled : i.signaledValue ≤ i'.signaledValue
  given : Inv i → ∀ target id,
    Given i' target id ↔ Given i target id ∨ target ∈ added ∧ id = i'.currentSeqId

theorem Moves.trans {i'' : ResourceInitializer W A} {added : List W} (h : Moves i i' [])
    (h' : Moves i' i'' added) : Moves i i'' added where
  inv hi := h'.inv (h.inv hi)
  signaled := h.signaled.trans h'.signaled
  given hi target id := by
    rw [h'.given (h.inv hi), h.given hi]
    simp only [List.not_mem_nil, false_and, or_false]

theorem stream_flushInternal (i : ResourceInitializer W A) : i.flushInternal.stream = i.stream := by
  unfold stream
  change (i.submitted ++ [i.encode]).flatMap _ ++ [] = _
  rw [List.append_nil, List.flatMap_append, List.flatMap_singleton]
  rfl

theorem moves_flushInternal (i : ResourceInitializer W A) : Moves i i.flushInternal [] where
  inv h := by
    have hlength : i.flushInternal.submitted.length = i.submitted.length + 1 := List.length_append
    refine ⟨?_, le_rfl, ?_, ?_, ?_⟩
    · rw [hlength, h.seq]
      rfl
    · rw [hlength]
      exact h.signaled.trans (Nat.le_succ _)
    · rw [stream_flushInternal]
      exact h.zeroed
    · rw [stream_flushInternal]
      exact h.zeros
  signaled := le_rfl
  given _ target id := by
    simp only [List.not_mem_nil, false_and, or_false]
    refine and_congr_right fun _ => exists_congr fun buffer => ?_
    change ((i.submitted ++ [i.encode]) ++ [InitCommandBuffer.mk [] []])[id - 1]? = _ ∧ _ ↔ _
    obtain hlt | hge := Nat.lt_or_ge (id - 1) (i.submitted ++ [i.encode]).length
    · rw [List.getElem?_append_left hlt]
    · -- the new command buffer is empty
      rw [List.getElem?_append_right hge, List.getElem?_eq_none hge]
      constructor
      · rintro ⟨hbuffer, hmem⟩
        obtain rfl := List.mem_singleton.mp (List.mem_of_getElem? hbuffer)
        cases hmem
      · rintro ⟨hbuffer, -⟩
        cases hbuffer

/-- Commands are added. -/
theorem Moves.append {clears : List (ClearPass W)} {blits : List (InitBlit W)} {added : List W}
    (hsubmitted : i'.submitted = i.submitted) (hseq : i'.currentSeqId = i.currentSeqId)
    (hle : i.signaledValue ≤ i'.signaledValue)
    (hcounts : Inv i → i'.cachedCoherentSeqId ≤ i'.signaledValue ∧
      i'.signaledValue ≤ i'.submitted.length)
    (hclears : i'.clears = i.clears ++ clears) (hblits : i'.blits = i.blits ++ blits)
    (hadded : (clears.filter (·.valid)).map (·.target) ++ blits.filterMap InitBlit.target? = added)
    (hzeros : Inv i → Zeroed (zerosAfter (fun _ => 0) i.stream) blits ∧
      (i'.zeroBufferSize ≠ 0 → i'.zeroBufferSize ≤
        zerosAfter (zerosAfter (fun _ => 0) i.stream) blits i'.zeroBuffer)) : Moves i i' added where
  inv h := by
    obtain ⟨hzeroed, hsize⟩ := hzeros h
    have hstream : i'.stream = i.stream ++ blits := by
      unfold stream
      rw [hsubmitted, hblits, List.append_assoc]
    refine ⟨?_, (hcounts h).1, (hcounts h).2, ?_, ?_⟩
    · rw [hsubmitted, hseq]
      exact h.seq
    · rw [hstream]
      exact zeroed_append.mpr ⟨h.zeroed, hzeroed⟩
    · rw [hstream, zerosAfter_append]
      exact hsize
  signaled := hle
  given h target id := by
    have htargets : target ∈ i'.encode.targets ↔ target ∈ i.encode.targets ∨ target ∈ added := by
      unfold encode InitCommandBuffer.targets
      rw [hclears, hblits, ← hadded]
      simp only [List.filter_append, List.map_append, List.filterMap_append, List.mem_append]
      exact or_or_or_comm
    have hlast : id - 1 = i.submitted.length ∧ 0 < id ↔ id = i'.currentSeqId := by
      have := h.seq
      omega
    unfold Given
    rw [hsubmitted, ← hlast]
    obtain hlt | heq | hgt := Nat.lt_trichotomy (id - 1) i.submitted.length
    · rw [List.getElem?_append_left hlt, List.getElem?_append_left hlt]
      simp only [hlt.ne, false_and, and_false, or_false]
    · rw [heq, List.getElem?_concat_length, List.getElem?_concat_length]
      simp only [Option.some.injEq, exists_eq_left', htargets, true_and, and_or_left]
      exact or_congr_right and_comm
    · rw [List.getElem?_eq_none (by rw [List.length_append]; exact hgt),
        List.getElem?_eq_none (by rw [List.length_append]; exact hgt)]
      simp only [hgt.ne', reduceCtorEq, false_and, exists_false, and_false, or_false]

/-- Nothing that counts is changed. -/
theorem Moves.same (hsubmitted : i'.submitted = i.submitted)
    (hseq : i'.currentSeqId = i.currentSeqId) (hle : i.signaledValue ≤ i'.signaledValue)
    (hcounts : Inv i → i'.cachedCoherentSeqId ≤ i'.signaledValue ∧
      i'.signaledValue ≤ i'.submitted.length) (hclears : i'.clears = i.clears)
    (hblits : i'.blits = i.blits) (hsize : i'.zeroBufferSize = i.zeroBufferSize)
    (hbuffer : i'.zeroBuffer = i.zeroBuffer) : Moves i i' [] :=
  .append hsubmitted hseq hle hcounts (hclears.trans (List.append_nil _).symm)
    (hblits.trans (List.append_nil _).symm) rfl
    fun h => ⟨trivial, by rw [hsize, hbuffer]; exact h.zeros⟩

theorem Moves.refl (i : ResourceInitializer W A) : Moves i i [] :=
  .same rfl rfl le_rfl Inv.values rfl rfl rfl rfl

/-! ## The parts of a call -/

/-- What holds of the state behind a part of a call. -/
def Spec (r : Except (ResourceInitializer W A) (ResourceInitializer W A))
    (done failed : ResourceInitializer W A → Prop) : Prop :=
  match r with
  | .ok i => done i
  | .error i => failed i

theorem Spec.bind {r : Except (ResourceInitializer W A) (ResourceInitializer W A)}
    {f : ResourceInitializer W A → Except (ResourceInitializer W A) (ResourceInitializer W A)}
    {done done' failed : ResourceInitializer W A → Prop} (h : Spec r done failed)
    (hf : ∀ i, done i → Spec (f i) done' failed) : Spec (r >>= f) done' failed := by
  cases r with
  | ok i => exact hf i h
  | error i => exact h

theorem Spec.mono {r : Except (ResourceInitializer W A) (ResourceInitializer W A)}
    {done done' failed failed' : ResourceInitializer W A → Prop} (h : Spec r done failed)
    (hdone : ∀ i, done i → done' i) (hfailed : ∀ i, failed i → failed' i) :
    Spec r done' failed' := by
  cases r with
  | ok i => exact hdone i h
  | error i => exact hfailed i h

theorem allocateCpuHeap_eq {l : TypeLayout} (h : i.allocateCpuHeap l = some i') :
    i' = { i with cpuCommandHeapOffset := i'.cpuCommandHeapOffset } := by
  unfold allocateCpuHeap at h
  dsimp only at h
  split at h
  · cases h
  · obtain rfl := Option.some.inj h
    rfl

theorem allocateBlit_spec (i : ResourceInitializer W A) (l : TypeLayout) (blit : InitBlit W) :
    Spec (i.allocateBlit l blit)
      (fun i' => ∃ offset, i' = { i with cpuCommandHeapOffset := offset, blits := i.blits ++
        [blit] })
      (fun i' => i' = i) := by
  unfold allocateBlit
  split
  next i' h => exact ⟨_, by rw [allocateCpuHeap_eq h]⟩
  next => rfl

theorem allocateClear_spec (i : ResourceInitializer W A) (clear : ClearPass W) :
    Spec (i.allocateClear L clear)
      (fun i' => ∃ offset, i' = { i with
        cpuCommandHeapOffset := offset, clears := i.clears ++ [clear] }) (fun i' => i' = i) := by
  unfold allocateClear
  split
  next i' h => exact ⟨_, by rw [allocateCpuHeap_eq h]⟩
  next => rfl

theorem retainAllocation_spec (i : ResourceInitializer W A) (allocation : A) :
    Spec (i.retainAllocation L allocation)
      (fun i' => ∃ offset tracked refsLeft, i' = { i with
        cpuCommandHeapOffset := offset, tracked := tracked, refsLeft := refsLeft })
      (fun i' => i' = i) := by
  unfold retainAllocation
  split
  · split
    next i' h => exact ⟨_, _, _, by rw [allocateCpuHeap_eq h]; rfl⟩
    next => rfl
  · exact ⟨_, _, _, rfl⟩

/-- The zeros are there, or the call is given up. -/
theorem allocateZeroBuffer_spec (i : ResourceInitializer W A) (size : Nat) :
    Spec (i.allocateZeroBuffer L size)
      (fun i' => Moves i i' [] ∧ size ≤ i'.zeroBufferSize) (Moves i · []) := by
  unfold allocateZeroBuffer
  split
  next hlt =>
    split
    next hne =>
      have hflush := moves_flushInternal i
      refine ⟨fun h => ?_, hflush.signaled, hflush.given⟩
      obtain ⟨hseq, hcoherent, hsignaled, hzeroed, -⟩ := hflush.inv h
      exact ⟨hseq, hcoherent, hsignaled, hzeroed, fun h => absurd rfl h⟩
    next hzero =>
      have hfill := allocateBlit_spec i L.fillBuffer (.fillZeroBuffer (i.zeroBuffer + 1) size)
      cases hresult : i.allocateBlit L.fillBuffer (.fillZeroBuffer (i.zeroBuffer + 1) size) with
      | ok i' =>
        rw [hresult] at hfill
        obtain ⟨offset, rfl⟩ := hfill
        refine ⟨?_, le_rfl⟩
        refine .append rfl rfl le_rfl Inv.values (List.append_nil _).symm rfl
          rfl fun _ => ⟨trivial, fun _ => ?_⟩
        change size ≤ Function.update (zerosAfter (fun _ => 0) i.stream) (i.zeroBuffer + 1) size
          (i.zeroBuffer + 1)
        rw [Function.update_self]
      | error i' =>
        rw [hresult] at hfill
        exact hfill ▸ Moves.refl i
  next hle => exact ⟨.refl i, not_lt.mp hle⟩

theorem retainAllocation_moves (i : ResourceInitializer W A) (allocation : A) :
    Spec (i.retainAllocation L allocation)
      (fun i' => Moves i i' [] ∧ i'.zeroBufferSize = i.zeroBufferSize) (Moves i · []) := by
  refine (retainAllocation_spec i allocation).mono ?_ fun i' heq => heq ▸ .refl i
  rintro i' ⟨offset, tracked, refsLeft, rfl⟩
  exact ⟨.same rfl rfl le_rfl Inv.values rfl rfl rfl rfl, rfl⟩

/-- The rule for the command of a call. -/
theorem allocateBlit_moves (i : ResourceInitializer W A) (l : TypeLayout) {blit : InitBlit W}
    {target : W} (htarget : blit.target? = some target)
    (hzeroed : Inv i → Zeroed (zerosAfter (fun _ => 0) i.stream) [blit])
    (hzeros : ∀ zeros, zerosAfter zeros [blit] = zeros) :
    Spec (i.allocateBlit l blit) (fun i' => ∀ heap,
      Moves i { i' with gpuCommandHeap := heap } [target]) (Moves i · []) := by
  refine (allocateBlit_spec i l blit).mono ?_ fun i' heq => heq ▸ .refl i
  rintro i' ⟨offset, rfl⟩ heap
  have hadded : [blit].filterMap InitBlit.target? = [target] := List.filterMap_cons_some htarget
  refine .append rfl rfl le_rfl Inv.values (List.append_nil _).symm rfl
    hadded fun h => ⟨hzeroed h, ?_⟩
  rw [hzeros]
  exact h.zeros

theorem allocateClear_moves (i : ResourceInitializer W A) (target : W) :
    Spec (i.allocateClear L { target, valid := true }) (Moves i · [target]) (Moves i · []) := by
  refine (allocateClear_spec i _).mono ?_ fun i' heq => heq ▸ .refl i
  rintro i' ⟨offset, rfl⟩
  show Moves i _ [target]
  exact .append rfl rfl le_rfl Inv.values rfl (List.append_nil _).symm rfl
    fun h => ⟨trivial, h.zeros⟩

/-- Parts one after the other. -/
theorem Moves.bind {r : Except (ResourceInitializer W A) (ResourceInitializer W A)}
    {f : ResourceInitializer W A → Except (ResourceInitializer W A) (ResourceInitializer W A)}
    {added : List W} {done : ResourceInitializer W A → Prop}
    (h : Spec r (fun i' => Moves i i' [] ∧ done i') (Moves i · []))
    (hf : ∀ i', done i' → Spec (f i') (Moves i' · added) (Moves i' · [])) :
    Spec (r >>= f) (Moves i · added) (Moves i · []) :=
  Spec.bind h fun i' hi =>
    (hf i' hi.2).mono (fun _ => hi.1.trans) fun _ => hi.1.trans

theorem initDepthStencilWithZero_spec (i : ResourceInitializer W A) (target : W) (allocation : A) :
    Spec (i.initDepthStencilWithZero L target allocation) (Moves i · [target]) (Moves i · []) :=
  Moves.bind (retainAllocation_moves i allocation) fun i' _ => allocateClear_moves i' target

theorem initRenderTargetWithZero_spec (i : ResourceInitializer W A) (target : W) (allocation : A)
    {texture : InitTexture} (hvalid : texture.renderTarget = true) :
    Spec (i.initRenderTargetWithZero L target allocation texture) (Moves i · [target])
      (Moves i · []) := by
  unfold initRenderTargetWithZero
  rw [hvalid]
  exact Moves.bind (retainAllocation_moves i allocation) fun i' _ => allocateClear_moves i' target

/-- What a call does: it adds its target, or nothing. -/
theorem initCall_spec (i : ResourceInitializer W A) {call : InitCall W A}
    (hallowed : call.allowed = true) :
    Spec (i.initCall L call) (Moves i · [call.target]) (Moves i · []) := by
  cases call with
  | initBufferWithZero target buffer =>
    refine Moves.bind (retainAllocation_moves i buffer) fun i' _ => ?_
    exact Spec.mono (allocateBlit_moves i' _ rfl (fun _ => trivial) fun _ => rfl)
      (fun _ h => h _) fun _ h => h
  | initDepthStencilWithZero target allocation =>
      exact initDepthStencilWithZero_spec i target allocation
  | initRenderTargetWithZero target allocation texture =>
    exact initRenderTargetWithZero_spec i target allocation hallowed
  | initWithZero target allocation texture level =>
    unfold initCall
    dsimp only
    split
    · exact initDepthStencilWithZero_spec i target allocation
    split
    next hvalid => exact initRenderTargetWithZero_spec i target allocation hvalid
    refine Moves.bind (allocateZeroBuffer_spec i _) fun i₁ hsize => ?_
    refine Moves.bind (retainAllocation_moves i₁ allocation) fun i₂ hkept => ?_
    refine Spec.mono (allocateBlit_moves i₂ _ rfl (fun h => ⟨?_, trivial⟩) fun _ => rfl)
      (fun _ h => h _) fun _ h => h
    rw [← hkept] at hsize
    -- the zero buffer may be empty, and so is then the copy
    obtain hzero | hne := Nat.eq_zero_or_pos i₂.zeroBufferSize
    · exact (hsize.trans hzero.le).trans (Nat.zero_le _)
    · exact hsize.trans (h.zeros hne.ne')
  | initWithData target allocation texture level =>
    refine Moves.bind (retainAllocation_moves i allocation) fun i' _ => ?_
    have htarget : ∀ src srcOffset length,
        (InitBlit.copyData target src srcOffset length).target? = some target := fun _ _ _ => rfl
    exact Spec.bind (allocateBlit_moves i' _ (htarget _ _ _) (fun _ => trivial) fun _ =>
        rfl) fun _ h =>
      h _

theorem moves_flushToWait (i : ResourceInitializer W A) : Moves i i.flushToWait.1 [] := by
  unfold flushToWait
  split
  · dsimp only
    split
    · exact .same rfl rfl le_rfl Inv.values rfl rfl rfl rfl
    · split <;> exact .same rfl rfl le_rfl (fun h => ⟨le_rfl, h.signaled⟩) rfl rfl rfl rfl
  · exact moves_flushInternal i

/-- What `flushToWait` promises: the command is executed, or the value to wait for is not below. -/
theorem flushToWait_covers (hinv : Inv i) {target : W} {id : Nat} (hgiven : Given i target id) :
    id ≤ i.signaledValue ∨ id ≤ i.flushToWait.2 := by
  obtain ⟨hpos, buffer, hbuffer, hmem⟩ := hgiven
  have hlt := (List.getElem?_eq_some_iff.mp hbuffer).1
  rw [List.length_append, List.length_singleton] at hlt
  have hseq := hinv.seq
  have hcoherent := hinv.coherent
  unfold flushToWait
  split
  next hidle =>
    -- nothing is pending, so the command buffer is committed
    have hne : id - 1 ≠ i.submitted.length := by
      intro heq
      obtain ⟨hblits, hclears⟩ := Bool.and_eq_true_iff.mp hidle
      rw [heq, List.getElem?_concat_length] at hbuffer
      obtain rfl := Option.some.inj hbuffer
      rw [encode, List.isEmpty_iff.mp hblits, List.isEmpty_iff.mp hclears] at hmem
      cases hmem
    dsimp only
    split
    · left
      omega
    · split
      · left
        omega
      · right
        change id ≤ i.currentSeqId - 1
        omega
  next =>
    right
    change id ≤ i.currentSeqId
    omega

/-- What has its first contents: the targets of the command buffers that are executed. -/
theorem mem_initialized (hinv : Inv i) {target : W} :
    target ∈ i.initialized ↔ ∃ id, Given i target id ∧ id ≤ i.signaledValue := by
  have hsignaled := hinv.signaled
  have hzeroed := hinv.zeroed
  unfold stream at hzeroed
  rw [← List.take_append_drop i.signaledValue i.submitted, List.flatMap_append,
    List.append_assoc] at hzeroed
  unfold initialized
  dsimp only
  rw [contents_of_zeroed (zeroed_append.mp hzeroed).1]
  have hexecuted : target ∈ (i.submitted.take i.signaledValue).flatMap (·.clears) ++
      ((i.submitted.take i.signaledValue).flatMap (·.blits)).filterMap InitBlit.target? ↔
      ∃ buffer ∈ i.submitted.take i.signaledValue, target ∈ buffer.targets := by
    simp only [InitCommandBuffer.targets, List.mem_append, List.mem_flatMap, List.mem_filterMap]
    aesop
  rw [hexecuted]
  constructor
  · rintro ⟨buffer, hbuffer, hmem⟩
    obtain ⟨k, hk, rfl⟩ := List.mem_take_iff_getElem.mp hbuffer
    have hlt : k < i.submitted.length := by omega
    refine ⟨k + 1, ⟨Nat.succ_pos k, _, ?_, hmem⟩, by omega⟩
    rw [Nat.add_sub_cancel, List.getElem?_append_left hlt, List.getElem?_eq_getElem hlt]
  · rintro ⟨id, ⟨hpos, buffer, hbuffer, hmem⟩, hle⟩
    have hlt : id - 1 < i.submitted.length := by omega
    rw [List.getElem?_append_left hlt] at hbuffer
    refine ⟨buffer, List.mem_of_getElem? ((List.getElem?_take_of_lt ?_).trans hbuffer), hmem⟩
    omega

end ResourceInitializer

/-! ## What a run keeps -/

namespace InitSystem

open ResourceInitializer

variable {W A : Type} {L : CommandLayouts} {s s' : InitSystem W A}

/-- The calls that found room are what the command buffers write. -/
structure Inv (s : InitSystem W A) : Prop where
  initializer : s.initializer.Inv
  taken : ∀ target id, (target, id) ∈ s.taken ↔ Given s.initializer target id

theorem Inv.create : Inv ({} : InitSystem W A) where
  initializer := ⟨rfl, le_rfl, le_rfl, trivial, fun h => absurd rfl h⟩
  taken target id := by
    refine iff_of_false List.not_mem_nil ?_
    rintro ⟨hpos, buffer, hbuffer, hmem⟩
    obtain rfl := List.mem_singleton.mp (List.mem_of_getElem? hbuffer)
    cases hmem

/-- What a step keeps. -/
structure Grows (s s' : InitSystem W A) : Prop where
  inv : Inv s'
  taken : ∀ entry ∈ s.taken, entry ∈ s'.taken
  signaled : s.initializer.signaledValue ≤ s'.initializer.signaledValue

theorem Inv.of_moves {i : ResourceInitializer W A} {lost : List W} (h : Inv s)
    (hmoves : Moves s.initializer i []) : Grows s { s with initializer := i, lost := lost } where
  inv := ⟨hmoves.inv h.initializer, fun target id => by
    rw [hmoves.given h.initializer, h.taken]
    simp only [List.not_mem_nil, false_and, or_false]⟩
  taken _ hmem := hmem
  signaled := hmoves.signaled

theorem Inv.step {e : InitEvent W A} (h : Inv s) (hs : s.step L e = some s') : Grows s s' := by
  cases e with
  | call call =>
    rw [InitSystem.step] at hs
    split at hs
    next hallowed =>
      have hspec := initCall_spec (L := L) s.initializer hallowed
      split at hs
      next i hcall =>
        obtain rfl := Option.some.inj hs
        rw [hcall] at hspec
        have hmoves : Moves s.initializer i [call.target] := hspec
        refine ⟨⟨hmoves.inv h.initializer, fun target id => ?_⟩,
          fun entry => List.mem_append_left _, hmoves.signaled⟩
        rw [hmoves.given h.initializer, ← h.taken, List.mem_append, List.mem_singleton,
          List.mem_singleton, Prod.mk.injEq]
      next i hcall =>
        obtain rfl := Option.some.inj hs
        rw [hcall] at hspec
        exact h.of_moves (Moves.trans hspec (moves_flushInternal i))
    next => cases hs
  | flushToWait =>
    obtain rfl := Option.some.inj hs
    exact h.of_moves (moves_flushToWait _)
  | execute =>
    rw [InitSystem.step] at hs
    split at hs
    next hlt =>
      obtain rfl := Option.some.inj hs
      exact h.of_moves (.same rfl rfl (Nat.le_succ _)
        (fun h => ⟨h.coherent.trans (Nat.le_succ _), hlt⟩) rfl rfl rfl rfl)
    next => cases hs

theorem Reachable.inv (h : Reachable L s) : Inv s := by
  induction h with
  | create => exact Inv.create
  | step _ hs ih => exact (ih.step hs).inv

theorem Reachable.run {events : List (InitEvent W A)} (h : Reachable L s)
    (hrun : s.run L events = some s') : Reachable L s' := by
  induction events generalizing s with
  | nil => exact Option.some.inj hrun ▸ h
  | cons e events ih =>
    obtain ⟨s₁, hs, hrest⟩ := Option.bind_eq_some_iff.mp hrun
    exact ih (h.step hs) hrest

theorem Inv.run {events : List (InitEvent W A)} (h : Inv s) (hrun : s.run L events = some s') :
    Grows s s' := by
  induction events generalizing s with
  | nil =>
    obtain rfl := Option.some.inj hrun
    exact ⟨h, fun _ hmem => hmem, le_rfl⟩
  | cons e events ih =>
    obtain ⟨s₁, hs, hrest⟩ := Option.bind_eq_some_iff.mp hrun
    have hgrows := h.step hs
    obtain ⟨hinv, htaken, hsignaled⟩ := ih hgrows.inv hrest
    exact ⟨hinv, fun entry hmem => htaken entry (hgrows.taken entry hmem),
      hgrows.signaled.trans hsignaled⟩

/-- A texture that needs more zeros than there are, when there are some, does not get them. -/
theorem step_growZeros {target : W} {allocation : A} {texture : InitTexture} {level : Nat}
    (hdepth : texture.depthStencil = false) (hcolor : texture.renderTarget = false)
    (hzeros : s.initializer.zeroBufferSize ≠ 0)
    (hlt : s.initializer.zeroBufferSize < texture.totalBytesNeeded level)
    (hs : s.step L (.call (.initWithZero target allocation texture level)) = some s') :
    s'.lost = s.lost ++ [target] ∧ s'.taken = s.taken := by
  have hcall : s.initializer.initCall L (.initWithZero target allocation texture level) =
      .error { s.initializer.flushInternal with zeroBufferSize := 0 } := by
    unfold initCall
    dsimp only
    rw [hdepth, hcolor, if_neg Bool.false_ne_true, if_neg Bool.false_ne_true]
    unfold allocateZeroBuffer
    rw [if_pos hlt, if_pos hzeros]
    rfl
  rw [InitSystem.step, hcall] at hs
  obtain rfl := Option.some.inj hs
  exact ⟨rfl, rfl⟩

/-- **What a caller waits for is initialized.** When the GPU has executed the event value that
`flushToWait` returned, in whatever continuation of the run, every call that found room has given
its target its first contents; and what has contents was given them by such a call, whose own event
value is executed. -/
theorem initialized_after_wait (h : Reachable L s) {s₁ : InitSystem W A}
    (hflush : s.step L .flushToWait = some s₁) {events : List (InitEvent W A)}
    (hrun : s₁.run L events = some s')
    (hwait : s.initializer.flushToWait.2 ≤ s'.initializer.signaledValue) :
    (∀ target id, (target, id) ∈ s.taken → target ∈ s'.initializer.initialized) ∧
    ∀ target ∈ s'.initializer.initialized,
      ∃ id ≤ s'.initializer.signaledValue, (target, id) ∈ s'.taken := by
  have hinv := h.inv
  have hfirst := hinv.step hflush
  obtain ⟨hinv', htaken, hsignaled⟩ := hfirst.inv.run hrun
  refine ⟨fun target id hmem => ?_, fun target hmem => ?_⟩
  · have hgiven := (hinv'.taken target id).mp (htaken _ (hfirst.taken _ hmem))
    refine (mem_initialized hinv'.initializer).mpr ⟨id, hgiven, ?_⟩
    obtain hle | hle := flushToWait_covers hinv.initializer ((hinv.taken target id).mp hmem)
    · exact (hle.trans hfirst.signaled).trans hsignaled
    · exact hle.trans hwait
  · obtain ⟨id, hgiven, hle⟩ := (mem_initialized hinv'.initializer).mp hmem
    exact ⟨id, hle, (hinv'.taken target id).mpr hgiven⟩

/-- Layouts of the commands. -/
def exampleLayouts : CommandLayouts where
  fillBuffer := ⟨48, 8⟩
  copyFromBufferToTexture := ⟨128, 8⟩
  clearRenderPassInfo := ⟨768, 8⟩
  refAddChunk := ⟨256, 8⟩

/-- A texture of four by four texels. -/
def colorTexture : InitTexture where
  width := 4
  height := 4
  depth := 1
  texelSize := 4
  blockSize := 1
  depthStencil := false
  renderTarget := true

/-- Two calls before a flush, and one behind it. -/
def flushedCalls : List (InitEvent Nat Nat) :=
  [.call (.initBufferWithZero 0 0), .call (.initDepthStencilWithZero 1 1), .flushToWait, .execute,
    .call (.initWithZero 2 2 colorTexture 0)]

theorem initialized_after_wait_flushedCalls : ∃ s s' : InitSystem Nat Nat,
    s.taken = [(0, 1), (1, 1), (2, 2)] ∧
    (∀ target id, (target, id) ∈ s.taken → target ∈ s'.initializer.initialized) ∧
    ∀ target ∈ s'.initializer.initialized,
      ∃ id ≤ s'.initializer.signaledValue, (target, id) ∈ s'.taken := by
  have hrun : ({} : InitSystem Nat Nat).run exampleLayouts flushedCalls = some _ := rfl
  have hreach := Reachable.create.run hrun
  exact ⟨_, _, rfl, @initialized_after_wait _ _ _ _ _ hreach _ rfl [.execute] rfl le_rfl⟩

end InitSystem

end Dxmt
