import Dxmt.ByteWords
import Dxmt.Overwrite
import Mathlib.Data.List.Perm.Basic
import Mathlib.Data.List.TakeWhile
import Mathlib.Tactic.Tauto

/-!
# Batches of buffer updates: `AnalyzePendingBufferUpdateBatch`, `CopyBufferRegions`

The updates of one buffer are taken out of the queue together. Going back from the latest one,
`AnalyzePendingBufferUpdateBatch` keeps for each update what no later one covers. The segments are
copied by a blit each, or by one dispatch in which a row of threads copies a segment 16 bytes a
thread.

A thread copies its 16 bytes as one `uint4`, for which both addresses have to be multiples of 16.
What the buffers start with is one (staging memory is asked for at 16, a suballocation has a
multiple of 16 bytes), but the offset of an update and what was packed before a segment need not be:
such a copy is undefined, and here has no result. The width of the dispatch is rounded up in 32
bits, so with a segment of almost 4 GiB it is zero.

Headlines:
* **`analyze_spec`**: a segment is a longest stretch of an update that no later update touches, and
  the segments of later updates come first.
* **`batched_iff`**: all ways to flush the batch leave what the updates one by one leave, exactly
  when no stretch is too long for a dispatch that is made and every piece of 16 bytes is aligned.
-/

namespace Dxmt

namespace UpdateBatch

open Intervals Overwrite

/-- A value kept in 32 bits. -/
def u32 (n : Nat) : Nat := n % 2 ^ 32

/-! ## The queue -/

/-- `contents` is what the staging buffer has, of which the payload is a copy. -/
structure PendingBufferUpdate where
  dst : Nat
  dstOffset : Nat
  contents : List Byte
  allowComputePack : Bool
  payload : Option (List Byte)
  payload_eq : ∀ bytes ∈ payload, bytes = contents
  fits : dstOffset + contents.length < 2 ^ 32

namespace PendingBufferUpdate

/-- Bytes of the update. -/
def length (update : PendingBufferUpdate) : Nat := update.contents.length

/-- The byte after the last. -/
def stop (update : PendingBufferUpdate) : Nat := update.dstOffset + update.length

/-- The bytes that the update overwrites. -/
def range (update : PendingBufferUpdate) : Nat × Nat := (update.dstOffset, update.stop)

end PendingBufferUpdate

/-- A part of an update that no later one overwrites. -/
structure Segment where
  updateIndex : Nat
  srcOffset : Nat
  dstOffset : Nat
  length : Nat
deriving DecidableEq

/-- The bytes that the segment overwrites. -/
def Segment.range (segment : Segment) : Nat × Nat :=
  (segment.dstOffset, segment.dstOffset + segment.length)

/-- `PendingBufferUpdateBatchInfo`. -/
structure PendingBufferUpdateBatchInfo where
  count : Nat := 0
  packedBytes : Nat := 0
  maxRegionBytes : Nat := 0
  canPackRegions : Bool := true
  segments : List Segment := []

/-! ## Covered ranges

The map is a list in the order of its keys. -/

/-- The loop that takes in what starts at or before the end. -/
def absorb : Nat → List (Nat × Nat) → Nat × List (Nat × Nat)
  | stop, [] => (stop, [])
  | stop, r :: rest => if r.1 ≤ stop then absorb (max stop r.2) rest else (stop, r :: rest)

/-- `add_covered_range`. -/
def addCoveredRange (ranges : List (Nat × Nat)) (start stop : Nat) : List (Nat × Nat) :=
  let before := ranges.takeWhile fun r => r.1 < start
  let it := ranges.dropWhile fun r => r.1 < start
  match before.getLast? with
  | none =>
    let (stop, it) := absorb stop it
    before ++ (start, stop) :: it
  | some prev =>
    if start ≤ prev.2 then
      let (stop, it) := absorb (max stop prev.2) it
      before.dropLast ++ (min start prev.1, stop) :: it
    else
      let (stop, it) := absorb stop it
      before ++ (start, stop) :: it

/-- The covered ranges from the one that the search starts with. -/
def firstCovered (ranges : List (Nat × Nat)) (cursor : Nat) : List (Nat × Nat) :=
  let it := ranges.dropWhile fun r => r.1 < cursor
  match (ranges.takeWhile fun r => r.1 < cursor).getLast? with
  | none => it
  | some prev => if cursor < prev.2 then prev :: it else it

/-- What is left up to `stop`. -/
def remainder (cursor stop : Nat) : List (Nat × Nat) :=
  if cursor < stop then [(cursor, stop)] else []

/-- The loop that goes along the covered ranges, with the segment behind it. -/
def uncovered (stop : Nat) : Nat → List (Nat × Nat) → List (Nat × Nat)
  | cursor, [] => remainder cursor stop
  | cursor, r :: rest =>
    if r.1 < stop then
      let gap := if cursor < r.1 then [(cursor, min r.1 stop)] else []
      if stop ≤ max cursor r.2 then gap else gap ++ uncovered stop (max cursor r.2) rest
    else remainder cursor stop

/-! ## The analysis -/

/-- The state of the loop over the updates. -/
structure Analysis where
  coveredRanges : List (Nat × Nat) := []
  info : PendingBufferUpdateBatchInfo := {}

/-- One round of the loop, for the update at an index. -/
def analyzeUpdate (buffer : Nat) (update : PendingBufferUpdate) (index : Nat) (s : Analysis) :
    Analysis :=
  if update.dst ≠ buffer then s
  else
    let info := { s.info with
      count := s.info.count + 1
      canPackRegions := s.info.canPackRegions &&
          (update.allowComputePack && update.payload.isSome) }
    let stop := u32 (update.dstOffset + update.length)
    if stop < update.dstOffset then { s with info := { info with canPackRegions := false } }
    else
      let gaps := uncovered stop update.dstOffset (firstCovered s.coveredRanges update.dstOffset)
      { coveredRanges := addCoveredRange s.coveredRanges update.dstOffset stop
        info := { info with
          segments := info.segments ++ gaps.map fun gap =>
            ⟨index, gap.1 - update.dstOffset, gap.1, gap.2 - gap.1⟩ } }

/-- The loop from the latest update back to the first. -/
def analyzeUpdates (buffer : Nat) (updates : List PendingBufferUpdate) (index : Nat) : Analysis :=
  (updates.zipIdx index).foldr (fun entry => analyzeUpdate buffer entry.1 entry.2) {}

/-- The loop that measures the regions. -/
def measureRegions (info : PendingBufferUpdateBatchInfo) :
    List Segment → PendingBufferUpdateBatchInfo
  | [] => info
  | segment :: segments =>
    let info := { info with
      packedBytes := info.packedBytes + segment.length
      maxRegionBytes := max info.maxRegionBytes segment.length }
    if 2 ^ 32 - 1 < info.packedBytes then { info with canPackRegions := false }
    else measureRegions info segments

/-- `AnalyzePendingBufferUpdateBatch`. -/
def analyzePendingBufferUpdateBatch (queue : List PendingBufferUpdate) (buffer : Nat) :
    PendingBufferUpdateBatchInfo :=
  let info := (analyzeUpdates buffer queue 0).info
  if info.canPackRegions then measureRegions info info.segments else info

/-! ## What is emitted -/

/-- The updates of the buffer one by one. -/
def plainWrites (queue : List PendingBufferUpdate) (buffer : Nat) : List (Write Byte) :=
  (queue.filter fun update => update.dst = buffer).map fun update =>
    ⟨update.dstOffset, update.contents⟩

/-- `EmitPendingBufferUpdateSegment`. -/
def segmentWrite (queue : List PendingBufferUpdate) (segment : Segment) : Write Byte where
  offset := segment.dstOffset
  values :=
    match queue[segment.updateIndex]? with
    | none => []
    | some update => (update.contents.drop segment.srcOffset).take segment.length

/-- `EmitPendingBufferUpdateBatchBlit`, with the segments in some order. -/
def blitWrites (queue : List PendingBufferUpdate) (buffer : Nat) (segments : List Segment) :
    List (Write Byte) :=
  if segments ≠ [] then segments.map (segmentWrite queue) else plainWrites queue buffer

/-- One region of the copy kernel. -/
structure BufferCopyRegion where
  srcOffset : Nat
  dstOffset : Nat
  byteLength : Nat

/-- What a segment takes of the payload. -/
def packedSegment (queue : List PendingBufferUpdate) (segment : Segment) : List Byte :=
  match queue[segment.updateIndex]? with
  | none => []
  | some update => ((update.payload.getD []).drop segment.srcOffset).take segment.length

/-- The loop of `EmitPackedPendingBufferUpdateBatch`: the packed bytes and the regions. -/
def packRegions (queue : List PendingBufferUpdate) :
    Nat → List Segment → List Byte × List BufferCopyRegion
  | _, [] => ([], [])
  | cursor, segment :: segments =>
    let rest := packRegions queue (cursor + segment.length) segments
    (packedSegment queue segment ++ rest.1, ⟨u32 cursor, segment.dstOffset,
    segment.length⟩ :: rest.2)

/-- The piece behind `byte_offset`: 16 bytes, or what is left. -/
def piece (src : List Byte) (srcOffset dstOffset byteLength byteOffset : Nat) : Write Byte :=
  if byteLength ≤ byteOffset then ⟨0, []⟩
  else
    ⟨dstOffset + byteOffset,
      (src.drop (srcOffset + byteOffset)).take (min 16 (byteLength - byteOffset))⟩

/-- The copy of a piece in both kernels. A whole one is copied as one `uint4`, whose addresses have
to be aligned, and what is left byte by byte. -/
def copyPiece (src : List Byte) (srcOffset dstOffset byteLength byteOffset : Nat) :
    Option (Write Byte) :=
  if 16 ≤ byteLength - byteOffset ∧ ¬(16 ∣ srcOffset + byteOffset ∧ 16 ∣ dstOffset +
    byteOffset) then
    none
  else some (piece src srcOffset dstOffset byteLength byteOffset)

/-- A thread of `cs_copy_buffer_bytes`. -/
def copyBufferBytes (src : List Byte) (dstOffset pos : Nat) : Option (Write Byte) :=
  copyPiece src 0 dstOffset src.length (u32 (pos * 16))

/-- A thread of `copy_buffer_regions`. -/
def copyBufferRegions (src : List Byte) (regions : List BufferCopyRegion) (pos : Nat × Nat) :
    Option (Write Byte) :=
  match regions[pos.2]? with
  | none => some ⟨0, []⟩
  | some region =>
    copyPiece src region.srcOffset region.dstOffset region.byteLength (u32 (pos.1 * 16))

/-- The threads of `CopyBufferRegions`; the width is computed in 32 bits. -/
def grid (regionCount maxRegionBytes : Nat) : List (Nat × Nat) :=
  if regionCount = 0 ∨ maxRegionBytes = 0 then []
  else List.range (u32 (maxRegionBytes + 15) / 16) ×ˢ List.range regionCount

/-- The threads of the dispatch for a batch. -/
def batchThreads (info : PendingBufferUpdateBatchInfo) : List (Nat × Nat) :=
  grid info.segments.length info.maxRegionBytes

/-- `CopyBufferBytes`, whose width is computed in 64 bits. -/
def copyWrites (update : PendingBufferUpdate) : Option (List (Write Byte)) :=
  (List.range ((update.length + 15) / 16)).mapM (copyBufferBytes update.contents update.dstOffset)

/-- `FlushPendingBufferUpdatesForCompute`, with the threads of the batch in some order. -/
def computeWrites (queue : List PendingBufferUpdate) (buffer : Nat) (threads : List (Nat × Nat)) :
    Option (List (Write Byte)) :=
  let info := analyzePendingBufferUpdateBatch queue buffer
  if info.canPackRegions ∧ 1 < info.count then
    let packed := packRegions queue 0 info.segments
    threads.mapM (copyBufferRegions packed.1 packed.2)
  else ((queue.filter fun update => update.dst = buffer).mapM copyWrites).map List.flatten

/-- `RemovePendingBufferUpdatesFor`. -/
def removePendingBufferUpdatesFor (queue : List PendingBufferUpdate) (buffer : Nat) :
    List PendingBufferUpdate :=
  queue.foldl (fun remaining update => if update.dst ≠ buffer then remaining ++
    [update] else remaining) []

/-- The queue and the contents of all buffers. -/
structure QueueState where
  queue : List PendingBufferUpdate
  contents : Nat → Nat → Byte

/-- One round of `FlushAllPendingBufferUpdates`, with the segments in the order of the analysis. -/
def flushBatch (s : QueueState) (buffer : Nat) : QueueState where
  queue := removePendingBufferUpdatesFor s.queue buffer
  contents b :=
    if b = buffer then
      let segments := (analyzePendingBufferUpdateBatch s.queue buffer).segments
      Write.run (s.contents b) (blitWrites s.queue buffer segments)
    else s.contents b

/-- `FlushAllPendingBufferUpdates`, which takes the buffer of the first update as long as there is
one. -/
def flushAll : Nat → QueueState → QueueState
  | 0, s => s
  | fuel + 1, s =>
    match s.queue with
    | [] => s
    | update :: _ => flushAll fuel (flushBatch s update.dst)

/-! ## The statement -/

/-- The segments of a batch, what every way to flush it leaves in the buffer and in the queue, and
what flushing all buffers leaves. -/
structure Batched (queue : List PendingBufferUpdate) (buffer : Nat) : Prop where
  disjoint : (analyzePendingBufferUpdateBatch queue buffer).segments.Pairwise fun r s =>
    Avoids r.range.1 r.range.2 s.range
  union : ∀ x, (∃ segment ∈ (analyzePendingBufferUpdateBatch queue buffer).segments,
      (segmentWrite queue segment).Covers x) ↔
    ∃ w ∈ plainWrites queue buffer, w.Covers x
  latest : ∀ segment ∈ (analyzePendingBufferUpdateBatch queue buffer).segments, ∀ x,
    segment.dstOffset ≤ x → x < segment.dstOffset + segment.length →
    ∃ before update after, queue = before ++ update :: after ∧ segment.updateIndex = before.length ∧
      update.dst = buffer ∧ update.dstOffset ≤ x ∧ x < update.stop ∧
      segment.srcOffset + (x - segment.dstOffset) = x - update.dstOffset ∧
      ∀ later ∈ after, later.dst = buffer → ¬(later.dstOffset ≤ x ∧ x < later.stop)
  blit : ∀ order, order.Perm (analyzePendingBufferUpdateBatch queue buffer).segments → ∀ mem,
    Write.run mem (blitWrites queue buffer order) = Write.run mem (plainWrites queue buffer)
  compute : ∀ order, order.Perm (batchThreads (analyzePendingBufferUpdateBatch queue buffer)) →
    ∃ writes, computeWrites queue buffer order = some writes ∧
      ∀ mem, Write.run mem writes = Write.run mem (plainWrites queue buffer)
  outside : ∀ mem x, (∀ update ∈ queue, update.dst = buffer → ¬(update.dstOffset ≤ x ∧ x <
    update.stop)) →
    Write.run mem (plainWrites queue buffer) x = mem x
  others : removePendingBufferUpdatesFor queue buffer = queue.filter fun update =>
    update.dst ≠ buffer
  all : ∀ contents,
    (flushAll queue.length ⟨queue, contents⟩).queue = [] ∧
      ∀ b, (flushAll queue.length ⟨queue, contents⟩).contents b =
        Write.run (contents b) (plainWrites queue b)

/-- The batch is packed: several updates, all of which allow it and have a payload. -/
def Packs (queue : List PendingBufferUpdate) (buffer : Nat) : Prop :=
  2 ≤ (queue.filter fun update => update.dst = buffer).length ∧
    ∀ update ∈ queue, update.dst = buffer → update.allowComputePack = true ∧ update.payload.isSome

/-- The cells from `a` to `b` of an update, which the later updates of the buffer do not touch. -/
structure Stretch (buffer : Nat) (update : PendingBufferUpdate) (after : List PendingBufferUpdate)
    (a b : Nat) :
    Prop where
  start : update.dstOffset ≤ a
  stop : b ≤ update.stop
  free : ∀ later ∈ after, later.dst = buffer → Avoids a b later.range

/-- A stretch that is part of no longer one. -/
structure Longest (buffer : Nat) (update : PendingBufferUpdate) (after : List PendingBufferUpdate)
    (a b : Nat) : Prop extends Stretch buffer update after a b where
  nonempty : a < b
  longest : ∀ a' b', a' ≤ a → b ≤ b' → Stretch buffer update after a' b' → a' = a ∧ b' = b

/-- How many bytes are packed before the stretch that starts at `a`: what the later updates cover,
and what the update covers before `a`. -/
def packedBefore (buffer : Nat) (update : PendingBufferUpdate) (after : List PendingBufferUpdate)
    (a : Nat) : Nat :=
  (cells ((update.dstOffset, a) ::
    (after.filter fun later => later.dst = buffer).map PendingBufferUpdate.range)).card

/-- A longest stretch of 16 bytes or more starts at a multiple of 16, in the buffer and in the
packed bytes. -/
def PackAligned (queue : List PendingBufferUpdate) (buffer : Nat) : Prop :=
  ∀ before update after a b, queue = before ++ update :: after → update.dst = buffer →
    Longest buffer update after a b → 16 ≤ b - a →
      16 ∣ packedBefore buffer update after a ∧ 16 ∣ a

/-- An update of 16 bytes or more starts at a multiple of 16. -/
def PlainAligned (queue : List PendingBufferUpdate) (buffer : Nat) : Prop :=
  ∀ update ∈ queue, update.dst = buffer → 16 ≤ update.length → 16 ∣ update.dstOffset

/-- No stretch is as long as 4 GiB less 15 bytes. -/
def Short (queue : List PendingBufferUpdate) (buffer : Nat) : Prop :=
  ∀ before update after a b, queue = before ++ update :: after → update.dst = buffer →
    Stretch buffer update after a b → b - a + 15 < 2 ^ 32

/-! ## Covered ranges: proofs -/

variable {ranges before it : List (Nat × Nat)} {start stop cursor a b : Nat} {r : Nat × Nat}

/-- What was absorbed is behind the start, and what is left behind the end. -/
theorem absorb_spec (h : Separated ranges) (hle : start ≤ stop)
    (hstart : ∀ r ∈ ranges, start ≤ r.1) :
    stop ≤ (absorb stop ranges).1 ∧ (absorb stop ranges).2.Sublist ranges ∧
      (∀ r ∈ (absorb stop ranges).2, (absorb stop ranges).1 < r.1) ∧
      ∀ a b, a < b → ((∀ r ∈ (start, (absorb stop ranges).1) :: (absorb stop ranges).2,
        Avoids a b r) ↔
        Avoids a b (start, stop) ∧ ∀ r ∈ ranges, Avoids a b r) := by
  induction ranges generalizing stop with
  | nil => exact ⟨le_rfl, .slnil, nofun, fun a b _ => by simp [absorb]⟩
  | cons r rest ih =>
    rw [absorb]
    obtain ⟨hr, hrest⟩ := List.forall_mem_cons.mp hstart
    split
    · next htouch =>
      obtain ⟨hge, hsub, hbehind, havoids⟩ := @ih (max stop r.2) h.tail (by omega) hrest
      refine ⟨by omega, hsub.trans (List.sublist_cons_self r rest), hbehind, fun a b hab => ?_⟩
      have hhull := avoids_hull (r := (start, stop)) (s := r) hab htouch
        (hr.trans (h.ordered r List.mem_cons_self))
      rw [Nat.min_eq_left hr] at hhull
      rw [havoids a b hab, hhull, List.forall_mem_cons, and_assoc]
    · next hgap =>
      refine ⟨le_rfl, List.Sublist.refl _, fun s hs => ?_, fun a b _ => List.forall_mem_cons⟩
      have hapart := (List.pairwise_cons.mp h.apart).1
      have hordered := h.ordered r List.mem_cons_self
      rcases List.mem_cons.mp hs with rfl | hs
      · simpa using hgap
      · have hlt := hapart s hs
        simp only [Nat.not_le] at hgap
        omega

/-- A range put behind those that end before it takes in what it touches. -/
theorem insert_spec (h : Separated (before ++ it)) (hle : start ≤ stop)
    (hbefore : ∀ r ∈ before, r.2 < start) (hit : ∀ r ∈ it, start ≤ r.1) :
    Separated (before ++ (start, (absorb stop it).1) :: (absorb stop it).2) ∧
      ∀ a b, a < b →
        ((∀ r ∈ before ++ (start, (absorb stop it).1) :: (absorb stop it).2, Avoids a b r) ↔
          Avoids a b (start, stop) ∧ ∀ r ∈ before ++ it, Avoids a b r) := by
  obtain ⟨hge, hsub, hbehind, havoids⟩ :=
    absorb_spec (h.sublist (List.sublist_append_right before it)) hle hit
  have hleft := h.sublist (List.sublist_append_left before it)
  have hright := (h.sublist (List.sublist_append_right before it)).sublist hsub
  refine ⟨⟨fun r hr => ?_, ?_⟩, fun a b hab => ?_⟩
  · rcases List.mem_append.mp hr with hr | hr
    · exact hleft.ordered r hr
    · rcases List.mem_cons.mp hr with rfl | hr
      · exact hle.trans hge
      · exact hright.ordered r hr
  · rw [List.pairwise_append, List.pairwise_cons]
    refine ⟨hleft.apart, ⟨hbehind, hright.apart⟩, fun r hr s hs => ?_⟩
    have hlt := hbefore r hr
    rcases List.mem_cons.mp hs with rfl | hs
    · exact hlt
    · have hlt' := hbehind s hs
      omega
  · rw [List.forall_mem_append, havoids a b hab, List.forall_mem_append]
    exact and_left_comm

/-- Behind the ranges that start before a point, all start there or later. -/
theorem le_of_mem_dropWhile (h : Separated ranges)
    (hr : r ∈ ranges.dropWhile fun r => r.1 < start) :
    start ≤ r.1 := by
  induction ranges with
  | nil => cases hr
  | cons s rest ih =>
    rw [List.dropWhile_cons] at hr
    split at hr
    · exact ih h.tail hr
    · next hs =>
      simp only [decide_eq_true_eq, Nat.not_lt] at hs
      have hordered := h.ordered s List.mem_cons_self
      rcases List.mem_cons.mp hr with rfl | hr
      · exact hs
      · have hlt := (List.pairwise_cons.mp h.apart).1 r hr
        omega

theorem lt_of_mem_takeWhile (hr : r ∈ ranges.takeWhile fun r => r.1 < start) : r.1 < start := by
  simpa using List.mem_takeWhile_imp hr

theorem split_at (ranges : List (Nat × Nat)) (start : Nat) :
    (ranges.takeWhile fun r => r.1 < start) ++ (ranges.dropWhile fun r => r.1 < start) = ranges :=
  List.takeWhile_append_dropWhile

/-- The ranges before the last one that starts before a point end before that one. -/
theorem Separated_init {init : List (Nat × Nat)} {prev : Nat × Nat}
    (h : Separated (init ++ [prev])) :
    ∀ r ∈ init, r.2 < prev.1 := fun r hr =>
  (List.pairwise_append.mp h.apart).2.2 r hr prev (List.mem_singleton_self _)

/-- **`add_covered_range` keeps the ranges apart**, and what avoids the result is what avoids all.
-/
theorem addCoveredRange_spec (h : Separated ranges) (hle : start ≤ stop) :
    Separated (addCoveredRange ranges start stop) ∧
      ∀ a b, a < b → ((∀ r ∈ addCoveredRange ranges start stop, Avoids a b r) ↔
        Avoids a b (start, stop) ∧ ∀ r ∈ ranges, Avoids a b r) := by
  have hsplit := split_at ranges start
  have hit := fun r (hr : r ∈ ranges.dropWhile fun r => r.1 < start) => le_of_mem_dropWhile h hr
  have hbefore := fun r (hr : r ∈ ranges.takeWhile fun r => r.1 < start) => lt_of_mem_takeWhile hr
  unfold addCoveredRange
  revert hsplit hit hbefore
  generalize (ranges.takeWhile fun r => r.1 < start) = before
  generalize (ranges.dropWhile fun r => r.1 < start) = it
  rintro rfl hit hbefore
  have hleft := h.sublist (List.sublist_append_left before it)
  cases hprev : before.getLast? with
  | none =>
    rw [List.getLast?_eq_none_iff] at hprev
    subst hprev
    exact insert_spec h hle nofun hit
  | some prev =>
    have hinit := (List.dropLast_append_getLast? prev hprev).symm
    generalize before.dropLast = init at hinit
    subst hinit
    have hends := Separated_init hleft
    have hprevLt := hbefore prev (by simp)
    have hordered := hleft.ordered prev (by simp)
    simp only [List.getLast?_concat, List.dropLast_concat]
    split
    · next htouch =>
      rw [Nat.min_eq_right hprevLt.le]
      rw [List.append_assoc] at h
      have hwhole : Separated (init ++ it) :=
        h.sublist ((List.sublist_cons_self prev it).append_left init)
      obtain ⟨hsep, havoids⟩ :=
        @insert_spec init it prev.1 (max stop prev.2) hwhole (by omega) hends
        fun r hr => hprevLt.le.trans (hit r hr)
      refine ⟨hsep, fun a b hab => ?_⟩
      have hhull := avoids_hull (r := (start, stop)) (s := prev) hab (by simp only; omega) htouch
      rw [Nat.min_eq_right hprevLt.le] at hhull
      rw [havoids a b hab, hhull]
      simp only [List.forall_mem_append, List.forall_mem_singleton]
      tauto
    · next hgap =>
      refine insert_spec h hle (fun r hr => ?_) hit
      simp only [Nat.not_le] at hgap
      rcases List.mem_append.mp hr with hr | hr
      · have hlt := hends r hr
        omega
      · rw [List.mem_singleton.mp hr]
        exact hgap

/-- The ranges that are left out end before the search starts. -/
theorem firstCovered_spec (h : Separated ranges) :
    Separated (firstCovered ranges cursor) ∧ ∀ a b, cursor ≤ a →
      ((∀ r ∈ firstCovered ranges cursor, Avoids a b r) ↔ ∀ r ∈ ranges, Avoids a b r) := by
  have hsplit := split_at ranges cursor
  have hbefore := fun r (hr : r ∈ ranges.takeWhile fun r => r.1 < cursor) => lt_of_mem_takeWhile hr
  unfold firstCovered
  revert hsplit hbefore
  generalize (ranges.takeWhile fun r => r.1 < cursor) = before
  generalize (ranges.dropWhile fun r => r.1 < cursor) = it
  rintro rfl hbefore
  have hleft := h.sublist (List.sublist_append_left before it)
  cases hprev : before.getLast? with
  | none =>
    rw [List.getLast?_eq_none_iff] at hprev
    subst hprev
    exact ⟨h, fun _ _ _ => Iff.rfl⟩
  | some prev =>
    have hinit := (List.dropLast_append_getLast? prev hprev).symm
    generalize before.dropLast = init at hinit
    subst hinit
    have hends := Separated_init hleft
    have hprevLt := hbefore prev (by simp)
    have hout : ∀ a b, cursor ≤ a → ∀ r ∈ init, Avoids a b r := fun a b ha r hr =>
      Or.inl ((hends r hr).le.trans (hprevLt.le.trans ha))
    dsimp only
    split
    · rw [List.append_assoc] at h
      refine ⟨h.sublist (List.sublist_append_right init _), fun a b ha => ?_⟩
      rw [List.append_assoc, List.forall_mem_append]
      exact (and_iff_right (hout a b ha)).symm
    · next hreach =>
      refine ⟨h.sublist (List.sublist_append_right _ it), fun a b ha => ?_⟩
      rw [List.forall_mem_append, List.forall_mem_append, List.forall_mem_singleton]
      exact (and_iff_right ⟨hout a b ha, Or.inl ((Nat.not_lt.mp hreach).trans ha)⟩).symm

theorem mem_remainder {g : Nat × Nat} :
    g ∈ remainder cursor stop ↔ g = (cursor, stop) ∧ cursor < stop := by
  unfold remainder
  split
  · next hlt => simp [hlt]
  · next hlt => simp [hlt]

/-- A gap lies between the cursor and the end and avoids the ranges. -/
theorem uncovered_sound (h : Separated ranges) :
    ∀ g ∈ uncovered stop cursor ranges, cursor ≤ g.1 ∧ g.1 < g.2 ∧ g.2 ≤ stop ∧
      ∀ r ∈ ranges, Avoids g.1 g.2 r := by
  induction ranges generalizing cursor with
  | nil =>
    intro g hg
    obtain ⟨rfl, hlt⟩ := mem_remainder.mp hg
    exact ⟨le_rfl, hlt, le_rfl, nofun⟩
  | cons r rest ih =>
    intro g hg
    have hordered := h.ordered r List.mem_cons_self
    have hapart := (List.pairwise_cons.mp h.apart).1
    rw [uncovered] at hg
    split at hg
    · have hgap : g ∈ (if cursor < r.1 then [(cursor, min r.1 stop)] else []) →
          cursor ≤ g.1 ∧ g.1 < g.2 ∧ g.2 ≤ stop ∧ ∀ s ∈ r :: rest, Avoids g.1 g.2 s := by
        intro hmem
        split at hmem
        · rw [List.mem_singleton.mp hmem]
          refine ⟨le_rfl, by simp only; omega, Nat.min_le_right _ _, List.forall_mem_cons.mpr ⟨?_,
              fun s hs => ?_⟩⟩
          · exact Or.inr (Nat.min_le_left _ _)
          · have hlt := hapart s hs
            exact Or.inr (by simp only; omega)
        · cases hmem
      dsimp only at hg
      split at hg
      · exact hgap hg
      · rcases List.mem_append.mp hg with hg | hg
        · exact hgap hg
        · obtain ⟨hstart, hlt, hstop, havoids⟩ := ih h.tail g hg
          exact ⟨by omega, hlt, hstop, List.forall_mem_cons.mpr ⟨Or.inl (by omega), havoids⟩⟩
    · next hbehind =>
      obtain ⟨rfl, hlt⟩ := mem_remainder.mp hg
      refine ⟨le_rfl, hlt, le_rfl, List.forall_mem_cons.mpr ⟨Or.inr (Nat.not_lt.mp hbehind),
          fun s hs => ?_⟩⟩
      have hlt := hapart s hs
      exact Or.inr (by simp only; omega)

/-- What lies between the cursor and the end and avoids the ranges is in one gap. -/
theorem uncovered_complete (hab : a < b) (hstart : cursor ≤ a) (hstop : b ≤ stop)
    (havoids : ∀ r ∈ ranges, Avoids a b r) :
    ∃ g ∈ uncovered stop cursor ranges, g.1 ≤ a ∧ b ≤ g.2 := by
  induction ranges generalizing cursor with
  | nil => exact ⟨(cursor, stop), mem_remainder.mpr ⟨rfl, by omega⟩, hstart, hstop⟩
  | cons r rest ih =>
    obtain ⟨hr, hrest⟩ := List.forall_mem_cons.mp havoids
    rw [uncovered]
    split
    · next hbefore =>
      rcases hr with hr | hr
      · have hcursor : max cursor r.2 ≤ a := by omega
        obtain ⟨g, hg, hgab⟩ := ih hcursor hrest
        refine ⟨g, ?_, hgab⟩
        dsimp only
        rw [if_neg (by omega)]
        exact List.mem_append_right _ hg
      · refine ⟨(cursor, min r.1 stop), ?_, hstart, le_min hr hstop⟩
        dsimp only
        rw [if_pos (show cursor < r.1 by omega)]
        split
        · exact List.mem_singleton_self _
        · exact List.mem_append_left _ (List.mem_singleton_self _)
    · exact ⟨(cursor, stop), mem_remainder.mpr ⟨rfl, by omega⟩, hstart, hstop⟩

/-- The gaps ascend. -/
theorem uncovered_ascending (h : Separated ranges) :
    (uncovered stop cursor ranges).Pairwise fun g g' => g.2 ≤ g'.1 := by
  induction ranges generalizing cursor with
  | nil =>
    rw [uncovered, remainder]
    split
    · exact List.pairwise_singleton _ _
    · exact .nil
  | cons r rest ih =>
    have hordered := h.ordered r List.mem_cons_self
    rw [uncovered]
    split
    · have hgap : (if cursor < r.1 then [(cursor, min r.1 stop)] else []).Pairwise
          fun g g' => g.2 ≤ g'.1 := by
        split
        · exact List.pairwise_singleton _ _
        · exact .nil
      dsimp only
      split
      · exact hgap
      · refine List.pairwise_append.mpr ⟨hgap, ih h.tail, fun g hg g' hg' => ?_⟩
        obtain ⟨hstart, -⟩ := uncovered_sound h.tail g' hg'
        split at hg
        · rw [List.mem_singleton.mp hg]
          simp only
          omega
        · cases hg
    · rw [remainder]
      split
      · exact List.pairwise_singleton _ _
      · exact .nil

/-! ## The analysis: proofs -/

variable {queue updates : List PendingBufferUpdate} {buffer index x : Nat}

/-- What the loop knows after the updates from an index on. -/
structure Analyzed (buffer index : Nat) (updates : List PendingBufferUpdate) (s : Analysis) :
    Prop where
  separated : Separated s.coveredRanges
  avoids : ∀ a b, a < b → ((∀ r ∈ s.coveredRanges, Avoids a b r) ↔
    ∀ update ∈ updates, update.dst = buffer → Avoids a b update.range)
  sound : ∀ segment ∈ s.info.segments, ∃ before update after, updates = before ++ update :: after ∧
    segment.updateIndex = index + before.length ∧ update.dst = buffer ∧ 0 < segment.length ∧
    segment.srcOffset = segment.dstOffset - update.dstOffset ∧
    Stretch buffer update after segment.dstOffset (segment.dstOffset + segment.length)
  complete : ∀ before update after a b, updates = before ++ update :: after → update.dst =
    buffer → a < b →
    Stretch buffer update after a b → ∃ segment ∈ s.info.segments,
      segment.updateIndex = index + before.length ∧ segment.dstOffset ≤ a ∧
        b ≤ segment.dstOffset + segment.length
  disjoint : s.info.segments.Pairwise fun r s => Avoids r.range.1 r.range.2 s.range
  ordered : s.info.segments.Pairwise fun r s => s.updateIndex < r.updateIndex ∨
    r.updateIndex = s.updateIndex ∧ r.dstOffset < s.dstOffset
  unmeasured : s.info.packedBytes = 0 ∧ s.info.maxRegionBytes = 0
  count : s.info.count = (updates.filter fun update => update.dst = buffer).length
  packable : s.info.canPackRegions = true ↔
    ∀ update ∈ updates, update.dst = buffer → update.allowComputePack = true ∧ update.payload.isSome

theorem Analyzed.nil (buffer index : Nat) : Analyzed buffer index [] {} where
  separated := .nil
  avoids a b _ := by simp
  sound := nofun
  complete before update after a b h := by simp at h
  disjoint := .nil
  ordered := .nil
  unmeasured := ⟨rfl, rfl⟩
  count := rfl
  packable := by simp

/-- An update of another buffer changes nothing. -/
theorem Analyzed.other {update : PendingBufferUpdate} {s : Analysis}
    (h : Analyzed buffer (index + 1) updates s)
    (hother : update.dst ≠ buffer) : Analyzed buffer index (update :: updates) s where
  separated := h.separated
  avoids a b hab := by
    rw [h.avoids a b hab, List.forall_mem_cons]
    exact (and_iff_right fun hdst => absurd hdst hother).symm
  sound segment hsegment := by
    obtain ⟨before, found, after, rfl, hindex, hfacts⟩ := h.sound segment hsegment
    exact ⟨update :: before, found, after, rfl, by rw [hindex, List.length_cons]; omega, hfacts⟩
  complete before found after a b hsplit hdst hab hstretch := by
    cases before with
    | nil =>
      cases hsplit
      exact absurd hdst hother
    | cons head before =>
      obtain ⟨-, htail⟩ := List.cons.inj hsplit
      obtain ⟨segment, hsegment, hindex, hle⟩ :=
          h.complete before found after a b htail hdst hab hstretch
      exact ⟨segment, hsegment, by rw [hindex, List.length_cons]; omega, hle⟩
  disjoint := h.disjoint
  ordered := h.ordered
  unmeasured := h.unmeasured
  count := by rw [h.count, List.filter_cons_of_neg (by simpa using hother)]
  packable := by
    rw [h.packable, List.forall_mem_cons]
    exact (and_iff_right fun hdst => absurd hdst hother).symm

/-- The gaps of an update are its stretches. -/
theorem Analyzed.gap {update : PendingBufferUpdate} {s : Analysis}
    (h : Analyzed buffer (index + 1) updates s) (hab : a < b) :
    (∃ g ∈ uncovered update.stop update.dstOffset (firstCovered s.coveredRanges update.dstOffset),
      g.1 ≤ a ∧ b ≤ g.2) ↔ Stretch buffer update updates a b := by
  obtain ⟨hsep, hfirst⟩ := @firstCovered_spec s.coveredRanges update.dstOffset h.separated
  constructor
  · rintro ⟨g, hg, ha, hb⟩
    obtain ⟨hstart, hlt, hstop, havoids⟩ := uncovered_sound hsep g hg
    rw [hfirst g.1 g.2 hstart, h.avoids g.1 g.2 hlt] at havoids
    refine ⟨hstart.trans ha, hb.trans hstop, fun later hlater hdst => ?_⟩
    rcases havoids later hlater hdst with hle | hle
    · exact Or.inl (hle.trans ha)
    · exact Or.inr (hb.trans hle)
  · rintro ⟨hstart, hstop, hfree⟩
    exact uncovered_complete hab hstart hstop ((hfirst a b hstart).mpr
        ((h.avoids a b hab).mpr hfree))

/-- **One round**: the gaps of the update become segments, and its range is covered. -/
theorem Analyzed.analyzeUpdate {s : Analysis} (h : Analyzed buffer (index + 1) updates s)
    (update : PendingBufferUpdate) :
    Analyzed buffer index (update :: updates) (analyzeUpdate buffer update index s) := by
  unfold UpdateBatch.analyzeUpdate
  split
  · next hother => exact h.other hother
  · next hdst =>
    rw [not_not] at hdst
    have hstop : u32 (update.dstOffset + update.length) = update.stop :=
      Nat.mod_eq_of_lt update.fits
    have hle : update.dstOffset ≤ update.stop := Nat.le_add_right _ _
    dsimp only
    rw [hstop, if_neg (by omega)]
    obtain ⟨hseparated, hadd⟩ := addCoveredRange_spec h.separated hle
    obtain ⟨hsep, hfirst⟩ := @firstCovered_spec s.coveredRanges update.dstOffset h.separated
    have hgapFacts := fun g hg => @uncovered_sound _ update.stop update.dstOffset hsep g hg
    refine ⟨hseparated, fun a b hab => ?_, fun segment hsegment => ?_,
      fun before found after a b hsplit hfound hab hstretch => ?_, ?_, ?_, h.unmeasured, ?_, ?_⟩
    · rw [hadd a b hab, h.avoids a b hab, List.forall_mem_cons]
      exact and_congr_left' (imp_iff_right hdst).symm
    · rcases List.mem_append.mp hsegment with hold | hnew
      · obtain ⟨before, found, after, rfl, hindex, hfacts⟩ := h.sound segment hold
        exact ⟨update :: before, found, after, rfl, by rw [hindex, List.length_cons]; omega, hfacts⟩
      · obtain ⟨g, hg, rfl⟩ := List.mem_map.mp hnew
        obtain ⟨-, hlt, -, -⟩ := hgapFacts g hg
        have hend : g.1 + (g.2 - g.1) = g.2 := by omega
        refine ⟨[], update, updates, rfl, rfl, hdst, by simp only; omega, rfl, ?_⟩
        simp only [hend]
        exact (h.gap hlt).mp ⟨g, hg, le_rfl, le_rfl⟩
    · cases before with
      | nil =>
        cases hsplit
        obtain ⟨g, hg, ha, hb⟩ := (h.gap hab).mpr hstretch
        refine ⟨_, List.mem_append_right _ (List.mem_map_of_mem hg), rfl, ha, ?_⟩
        simp only
        omega
      | cons head before =>
        obtain ⟨-, htail⟩ := List.cons.inj hsplit
        obtain ⟨segment, hsegment, hindex, hab⟩ :=
            h.complete before found after a b htail hfound hab hstretch
        exact ⟨segment, List.mem_append_left _ hsegment, by rw [hindex, List.length_cons]; omega,
            hab⟩
    · refine List.pairwise_append.mpr ⟨h.disjoint, ?_, fun r hr r' hr' => ?_⟩
      · refine List.pairwise_map.mpr ((uncovered_ascending hsep).imp_of_mem fun {g g'} hg hg'
          hle => ?_)
        obtain ⟨-, hlt, -, -⟩ := hgapFacts g hg
        obtain ⟨-, hlt', -, -⟩ := hgapFacts g' hg'
        simp only [Avoids, Segment.range]
        omega
      · obtain ⟨before, found, after, rfl, -, hfound, -, -, hstretch⟩ := h.sound r hr
        obtain ⟨g, hg, rfl⟩ := List.mem_map.mp hr'
        obtain ⟨-, hlt, -, -⟩ := hgapFacts g hg
        have hfree := ((h.gap hlt).mp ⟨g, hg, le_rfl, le_rfl⟩).free found (by simp) hfound
        have hstart := hstretch.start
        have hstop := hstretch.stop
        simp only [Avoids, Segment.range, PendingBufferUpdate.range] at hfree ⊢
        omega
    · refine List.pairwise_append.mpr ⟨h.ordered, ?_, fun r hr r' hr' => ?_⟩
      · refine List.pairwise_map.mpr ((uncovered_ascending hsep).imp_of_mem fun {g g'} hg _ hle =>
          ?_)
        obtain ⟨-, hlt, -, -⟩ := hgapFacts g hg
        exact Or.inr ⟨rfl, hlt.trans_le hle⟩
      · obtain ⟨before, found, after, -, hindex, -⟩ := h.sound r hr
        obtain ⟨g, -, rfl⟩ := List.mem_map.mp hr'
        exact Or.inl (by simp only; omega)
    · rw [h.count, List.filter_cons_of_pos (by simpa using hdst), List.length_cons]
    · rw [Bool.and_eq_true, h.packable, Bool.and_eq_true, List.forall_mem_cons, and_comm]
      exact and_congr_left' (imp_iff_right hdst).symm

/-- **The loop**, by induction on the updates that are left. -/
theorem analyzed (buffer : Nat) (updates : List PendingBufferUpdate) (index : Nat) :
    Analyzed buffer index updates (analyzeUpdates buffer updates index) := by
  induction updates generalizing index with
  | nil => exact .nil buffer index
  | cons update updates ih =>
    rw [analyzeUpdates, List.zipIdx_cons, List.foldr_cons]
    exact (ih (index + 1)).analyzeUpdate update

theorem measureRegions_segments (info : PendingBufferUpdateBatchInfo) (segments : List Segment) :
    (measureRegions info segments).segments = info.segments ∧
      (measureRegions info segments).count = info.count := by
  induction segments generalizing info with
  | nil => exact ⟨rfl, rfl⟩
  | cons segment segments ih =>
    rw [measureRegions]
    dsimp only
    split
    · exact ⟨rfl, rfl⟩
    · exact ih _

/-- Regions of less than 4 GiB together are measured to the end. -/
theorem measureRegions_spec {info : PendingBufferUpdateBatchInfo} {segments : List Segment}
    (h : info.packedBytes + (segments.map Segment.length).sum < 2 ^ 32) :
    (measureRegions info segments).canPackRegions = info.canPackRegions ∧
      info.maxRegionBytes ≤ (measureRegions info segments).maxRegionBytes ∧
      (∀ segment ∈ segments, segment.length ≤ (measureRegions info segments).maxRegionBytes) ∧
      ((measureRegions info segments).maxRegionBytes = info.maxRegionBytes ∨
        ∃ segment ∈ segments, (measureRegions info segments).maxRegionBytes = segment.length) := by
  induction segments generalizing info with
  | nil => exact ⟨rfl, le_rfl, nofun, Or.inl rfl⟩
  | cons segment segments ih =>
    rw [List.map_cons, List.sum_cons] at h
    rw [measureRegions]
    dsimp only
    rw [if_neg (by omega)]
    obtain ⟨hpack, hmax, hall, hsome⟩ := @ih ({ info with
      packedBytes := info.packedBytes + segment.length
      maxRegionBytes := max info.maxRegionBytes segment.length }) (by simp only; omega)
    simp only at hpack hmax hall hsome
    refine ⟨hpack, by omega, List.forall_mem_cons.mpr ⟨by omega, hall⟩, ?_⟩
    rcases hsome with hsome | ⟨found, hfound, heq⟩
    · rcases Nat.le_total segment.length info.maxRegionBytes with hle | hle
      · exact Or.inl (by omega)
      · exact Or.inr ⟨segment, List.mem_cons_self, by omega⟩
    · exact Or.inr ⟨found, List.mem_cons_of_mem _ hfound, heq⟩

/-- What is known of the information on a batch. -/
structure BatchFacts (queue : List PendingBufferUpdate) (buffer : Nat)
    (info : PendingBufferUpdateBatchInfo) :
    Prop where
  sound : ∀ segment ∈ info.segments, ∃ before update after, queue = before ++ update :: after ∧
    segment.updateIndex = before.length ∧ update.dst = buffer ∧ 0 < segment.length ∧
    segment.srcOffset = segment.dstOffset - update.dstOffset ∧
    Stretch buffer update after segment.dstOffset (segment.dstOffset + segment.length)
  complete : ∀ before update after a b, queue = before ++ update :: after → update.dst = buffer →
    a < b →
    Stretch buffer update after a b → ∃ segment ∈ info.segments,
      segment.updateIndex = before.length ∧ segment.dstOffset ≤ a ∧ b ≤ segment.dstOffset +
        segment.length
  disjoint : info.segments.Pairwise fun r s => Avoids r.range.1 r.range.2 s.range
  ordered : info.segments.Pairwise fun r s => s.updateIndex < r.updateIndex ∨
    r.updateIndex = s.updateIndex ∧ r.dstOffset < s.dstOffset
  total : (info.segments.map Segment.length).sum < 2 ^ 32
  packs : (info.canPackRegions = true ∧ 1 < info.count) ↔ Packs queue buffer
  max : info.canPackRegions = true → (∀ segment ∈ info.segments, segment.length ≤
    info.maxRegionBytes) ∧
    (info.maxRegionBytes = 0 ∨ ∃ segment ∈ info.segments, info.maxRegionBytes = segment.length)

/-- **The analysis**: a segment is a longest stretch of an update that no later update touches. -/
theorem analyze_spec (queue : List PendingBufferUpdate) (buffer : Nat) :
    BatchFacts queue buffer (analyzePendingBufferUpdateBatch queue buffer) := by
  have h := analyzed buffer queue 0
  have htotal : ((analyzeUpdates buffer queue 0).info.segments.map Segment.length).sum
      < 2 ^ 32 := by
    have hsum := sum_lengths_le (N := 2 ^ 32 - 1) (List.pairwise_map.mpr h.disjoint) fun r hr => by
      obtain ⟨segment, hsegment, rfl⟩ := List.mem_map.mp hr
      obtain ⟨before, update, after, -, -, -, -, -, hstretch⟩ := h.sound segment hsegment
      have hstop := hstretch.stop
      have hfits := update.fits
      simp only [Segment.range, PendingBufferUpdate.stop, PendingBufferUpdate.length] at hstop ⊢
      omega
    rw [List.map_map] at hsum
    have hlength : ((fun r : Nat × Nat => r.2 - r.1) ∘ Segment.range) = Segment.length :=
      funext fun segment => by simp [Segment.range]
    rw [hlength] at hsum
    omega
  have hsound := h.sound
  have hcomplete := h.complete
  simp only [Nat.zero_add] at hsound hcomplete
  have hpacks : (analyzeUpdates buffer queue 0).info.canPackRegions = true ∧
      1 < (analyzeUpdates buffer queue 0).info.count ↔ Packs queue buffer := by
    rw [h.packable, h.count, Packs, and_comm]
    rfl
  unfold analyzePendingBufferUpdateBatch
  dsimp only
  split
  · next hpack =>
    obtain ⟨hsegments, hcount⟩ :=
      measureRegions_segments (analyzeUpdates buffer queue 0).info
        (analyzeUpdates buffer queue 0).info.segments
    have hmeasured : (analyzeUpdates buffer queue 0).info.packedBytes +
        ((analyzeUpdates buffer queue 0).info.segments.map Segment.length).sum < 2 ^ 32 := by
      rw [h.unmeasured.1, Nat.zero_add]
      exact htotal
    obtain ⟨hcan, -, hall, hsome⟩ := measureRegions_spec hmeasured
    rw [h.unmeasured.2] at hsome
    refine ⟨hsegments.symm ▸ hsound, hsegments.symm ▸ hcomplete, hsegments.symm ▸ h.disjoint,
      hsegments.symm ▸ h.ordered, hsegments.symm ▸ htotal, ?_, fun _ =>
        hsegments.symm ▸ ⟨hall, hsome⟩⟩
    rw [hcan, hcount]
    exact hpacks
  · next hpack => exact ⟨hsound, hcomplete, h.disjoint, h.ordered, htotal, hpacks,
      fun hcan => absurd hcan hpack⟩

/-! ## What the buffer holds -/

/-- The update of the buffer that a byte comes from. -/
structure Newest (queue : List PendingBufferUpdate) (buffer x : Nat)
    (before : List PendingBufferUpdate) (update : PendingBufferUpdate)
    (after : List PendingBufferUpdate) : Prop where
  split : queue = before ++ update :: after
  dst : update.dst = buffer
  start : update.dstOffset ≤ x
  stop : x < update.stop
  free : ∀ later ∈ after, later.dst = buffer → ¬(later.dstOffset ≤ x ∧ x < later.stop)

theorem Newest.stretch {before after : List PendingBufferUpdate} {update : PendingBufferUpdate}
    (h : Newest queue buffer x before update after) : Stretch buffer update after x (x + 1) := by
  refine ⟨h.start, h.stop, fun later hlater hdst => ?_⟩
  have hfree := h.free later hlater hdst
  simp only [Avoids, PendingBufferUpdate.range]
  omega

theorem Stretch.newest {before after : List PendingBufferUpdate} {update : PendingBufferUpdate}
    (h : Stretch buffer update after a b) (hsplit : queue = before ++ update :: after)
    (hdst : update.dst = buffer) (ha : a ≤ x) (hb : x < b) :
    Newest queue buffer x before update after := by
  refine ⟨hsplit, hdst, h.start.trans ha, hb.trans_le h.stop,
      fun later hlater hlaterDst hcovers => ?_⟩
  have hfree := h.free later hlater hlaterDst
  simp only [Avoids, PendingBufferUpdate.range] at hfree
  omega

/-- A byte comes from one update. -/
theorem Newest.unique {before before' after after' : List PendingBufferUpdate}
    {update update' : PendingBufferUpdate} (h : Newest queue buffer x before update after)
    (h' : Newest queue buffer x before' update' after') :
    before = before' ∧ update = update' := by
  have hsplit := h.split.symm.trans h'.split
  have hfree := h.free
  have hfree' := h'.free
  have hcovers := And.intro h.start h.stop
  have hcovers' := And.intro h'.start h'.stop
  rcases List.append_eq_append_iff.mp hsplit with ⟨between, rfl, hrest⟩ | ⟨between, rfl, hrest⟩
  · cases between with
    | nil =>
      obtain ⟨rfl, -⟩ := List.cons.inj hrest
      exact ⟨(List.append_nil before).symm, rfl⟩
    | cons head between =>
      obtain ⟨rfl, rfl⟩ := List.cons.inj hrest
      exact absurd hcovers' (hfree update' (by simp) h'.dst)
  · cases between with
    | nil =>
      obtain ⟨rfl, -⟩ := List.cons.inj hrest
      exact ⟨List.append_nil before', rfl⟩
    | cons head between =>
      obtain ⟨rfl, rfl⟩ := List.cons.inj hrest
      exact absurd hcovers (hfree' update (by simp) h.dst)

/-- A byte of an update comes from some update. -/
theorem exists_newest
    (h : ∃ update ∈ queue, update.dst = buffer ∧ update.dstOffset ≤ x ∧ x < update.stop) :
    ∃ before update after, Newest queue buffer x before update after := by
  induction queue with
  | nil => simp at h
  | cons head queue ih =>
    by_cases hrest : ∃ update ∈ queue, update.dst = buffer ∧ update.dstOffset ≤ x ∧ x < update.stop
    · obtain ⟨before, update, after, hnewest⟩ := ih hrest
      exact ⟨head :: before, update, after, by rw [hnewest.split]; rfl, hnewest.dst, hnewest.start,
        hnewest.stop, hnewest.free⟩
    · obtain ⟨update, hupdate, hdst, hstart, hstop⟩ := h
      rcases List.mem_cons.mp hupdate with rfl | hupdate
      · exact ⟨[], update, queue, rfl, hdst, hstart, hstop, fun later hlater hlaterDst hcovers =>
          hrest ⟨later, hlater, hlaterDst, hcovers⟩⟩
      · exact absurd ⟨update, hupdate, hdst, hstart, hstop⟩ hrest

/-- The update as an overwrite of the buffer. -/
def PendingBufferUpdate.write (update : PendingBufferUpdate) : Write Byte :=
  ⟨update.dstOffset, update.contents⟩

theorem mem_plainWrites {w : Write Byte} :
    w ∈ plainWrites queue buffer ↔ ∃ update ∈ queue, update.dst = buffer ∧ update.write = w := by
  simp only [plainWrites, List.mem_map, List.mem_filter, decide_eq_true_eq, and_assoc]
  rfl

/-- One by one, the newest update decides. -/
theorem Newest.run {before after : List PendingBufferUpdate} {update : PendingBufferUpdate}
    {value : Byte} (h : Newest queue buffer x before update after) (hat : update.write.At x value)
    (mem : Nat → Byte) :
    Write.run mem (plainWrites queue buffer) x = value := by
  rw [h.split, plainWrites, List.filter_append, List.filter_cons_of_pos (by simpa using h.dst),
    List.map_append, List.map_cons]
  refine Write.run_of_last hat fun w hw => ?_
  obtain ⟨later, hlater, hdst, rfl⟩ := mem_plainWrites.mp hw
  exact h.free later hlater hdst

theorem Newest.exists_at {before after : List PendingBufferUpdate} {update : PendingBufferUpdate}
    (h : Newest queue buffer x before update after) : ∃ value, update.write.At x value :=
  Write.Covers.exists_at ⟨h.start, h.stop⟩

theorem run_plain_outside (mem : Nat → Byte)
    (h : ∀ update ∈ queue, update.dst = buffer → ¬(update.dstOffset ≤ x ∧ x < update.stop)) :
    Write.run mem (plainWrites queue buffer) x = mem x := by
  refine Write.run_of_not_covers fun w hw => ?_
  obtain ⟨update, hupdate, hdst, rfl⟩ := mem_plainWrites.mp hw
  exact h update hupdate hdst

variable {info : PendingBufferUpdateBatchInfo} {segment : Segment}

/-- The bytes of a segment come from its update. -/
theorem BatchFacts.newest (h : BatchFacts queue buffer info) (hsegment : segment ∈ info.segments)
    (hstart : segment.dstOffset ≤ x) (hstop : x < segment.dstOffset + segment.length) :
    ∃ before update after, Newest queue buffer x before update after ∧ segment.updateIndex =
      before.length ∧
      segment.srcOffset + (x - segment.dstOffset) = x - update.dstOffset := by
  obtain ⟨before, update, after, hsplit, hindex, hdst, -, hsrc, hstretch⟩ :=
      h.sound segment hsegment
  have hle := hstretch.start
  exact ⟨before, update, after, hstretch.newest hsplit hdst hstart hstop, hindex, by omega⟩

/-- Every byte that comes from an update is in a segment. -/
theorem BatchFacts.exists_segment (h : BatchFacts queue buffer info)
    {before after : List PendingBufferUpdate} {update : PendingBufferUpdate}
    (hnewest : Newest queue buffer x before update after) :
    ∃ segment ∈ info.segments, segment.dstOffset ≤ x ∧ x < segment.dstOffset + segment.length := by
  obtain ⟨segment, hsegment, -, hle, hlt⟩ :=
    h.complete before update after x (x + 1) hnewest.split hnewest.dst
      (Nat.lt_succ_self x) hnewest.stretch
  exact ⟨segment, hsegment, hle, hlt⟩

/-- What a segment of an update takes of bytes that are the update's is the update's byte. -/
theorem BatchFacts.slice_at (h : BatchFacts queue buffer info) (hsegment : segment ∈ info.segments)
    (hstart : segment.dstOffset ≤ x) (hstop : x < segment.dstOffset + segment.length)
    {before after : List PendingBufferUpdate} {update : PendingBufferUpdate} {value : Byte}
    (hnewest : Newest queue buffer x before update after) (hat : update.write.At x value) :
    queue[segment.updateIndex]? = some update ∧
      ((update.contents.drop segment.srcOffset).take segment.length)[x - segment.dstOffset]? =
        some value := by
  obtain ⟨before', update', after', hnewest', hindex, hsrc⟩ := h.newest hsegment hstart hstop
  obtain ⟨rfl, rfl⟩ := hnewest.unique hnewest'
  refine ⟨?_, ?_⟩
  · rw [hindex, hnewest.split, List.getElem?_append_right le_rfl, Nat.sub_self,
      List.getElem?_cons_zero]
  · rw [List.getElem?_take_of_lt (by omega), List.getElem?_drop, hsrc]
    exact hat.2

theorem BatchFacts.segmentWrite_at (h : BatchFacts queue buffer info)
    (hsegment : segment ∈ info.segments) (hcovers : (segmentWrite queue segment).Covers x)
    (hstop : x < segment.dstOffset + segment.length) {before after : List PendingBufferUpdate}
    {update : PendingBufferUpdate} {value : Byte}
    (hnewest : Newest queue buffer x before update after) (hat : update.write.At x value) :
    (segmentWrite queue segment).At x value := by
  obtain ⟨hfound, hslice⟩ := h.slice_at hsegment hcovers.1 hstop hnewest hat
  refine ⟨hcovers.1, ?_⟩
  simp only [segmentWrite, hfound]
  exact hslice

theorem segmentWrite_covers (h : (segmentWrite queue segment).Covers x) :
    segment.dstOffset ≤ x ∧ x < segment.dstOffset + segment.length := by
  refine ⟨h.1, h.2.trans_le (Nat.add_le_add_left ?_ _)⟩
  simp only [segmentWrite]
  split
  · exact Nat.zero_le _
  · exact List.length_take_le _ _

theorem BatchFacts.covers_iff (h : BatchFacts queue buffer info)
    (hsegment : segment ∈ info.segments) :
    (segmentWrite queue segment).Covers x ↔
      segment.dstOffset ≤ x ∧ x < segment.dstOffset + segment.length := by
  refine ⟨segmentWrite_covers, fun ⟨hstart, hstop⟩ => ?_⟩
  obtain ⟨before, update, after, hnewest, -, -⟩ := h.newest hsegment hstart hstop
  obtain ⟨value, hat⟩ := hnewest.exists_at
  obtain ⟨hfound, hslice⟩ := h.slice_at hsegment hstart hstop hnewest hat
  refine Write.At.covers (show (segmentWrite queue segment).At x value from ⟨hstart, ?_⟩)
  simp only [segmentWrite, hfound]
  exact hslice

/-- Writes that cover what the updates cover, and have the newest byte there, leave what the updates
leave. -/
theorem run_eq_plain {ws : List (Write Byte)} (mem : Nat → Byte)
    (hcovered : ∀ x before update after, Newest queue buffer x before update after → ∃ w ∈ ws,
      w.Covers x)
    (hagree : ∀ w ∈ ws, ∀ x, w.Covers x → ∃ before update after,
      Newest queue buffer x before update after ∧
      ∀ value, update.write.At x value → w.At x value) :
    Write.run mem ws = Write.run mem (plainWrites queue buffer) := by
  funext x
  by_cases hupdate : ∃ update ∈ queue, update.dst = buffer ∧ update.dstOffset ≤ x ∧ x < update.stop
  · obtain ⟨before, update, after, hnewest⟩ := exists_newest hupdate
    obtain ⟨value, hat⟩ := hnewest.exists_at
    rw [hnewest.run hat mem]
    refine Write.run_eq_of_agree (hcovered x before update after hnewest) fun w hw hcovers => ?_
    obtain ⟨before', update', after', hnewest', hagrees⟩ := hagree w hw x hcovers
    obtain ⟨rfl, rfl⟩ := hnewest.unique hnewest'
    exact hagrees value hat
  · have hnone : ∀ update ∈ queue, update.dst = buffer → ¬(update.dstOffset ≤ x ∧ x <
        update.stop) :=
      fun update hmem hdst hcovers => hupdate ⟨update, hmem, hdst, hcovers⟩
    rw [run_plain_outside mem hnone]
    refine Write.run_of_not_covers fun w hw hcovers => ?_
    obtain ⟨before, update, after, hnewest, -⟩ := hagree w hw x hcovers
    exact hnone update (by rw [hnewest.split]; simp) hnewest.dst ⟨hnewest.start, hnewest.stop⟩

/-- **The blits**, in any order. -/
theorem BatchFacts.blit (h : BatchFacts queue buffer info) {order : List Segment}
    (horder : order.Perm info.segments) (mem : Nat → Byte) :
    Write.run mem (blitWrites queue buffer order) = Write.run mem (plainWrites queue buffer) := by
  unfold blitWrites
  split
  · refine run_eq_plain mem (fun x before update after hnewest => ?_) fun w hw x hcovers => ?_
    · obtain ⟨segment, hsegment, hin⟩ := h.exists_segment hnewest
      exact ⟨_, List.mem_map_of_mem (horder.mem_iff.mpr hsegment), (h.covers_iff hsegment).mpr hin⟩
    · obtain ⟨segment, hsegment, rfl⟩ := List.mem_map.mp hw
      have hmem := horder.mem_iff.mp hsegment
      obtain ⟨hstart, hstop⟩ := segmentWrite_covers hcovers
      obtain ⟨before, update, after, hnewest, -, -⟩ := h.newest hmem hstart hstop
      exact ⟨before, update, after, hnewest, fun value hat =>
          h.segmentWrite_at hmem hcovers hstop hnewest hat⟩
  · rfl

/-! ## The packed copy -/

/-- Where a region is in the packed bytes: behind those of the segments before it. -/
theorem packRegions_spec {segments : List Segment} {k y : Nat}
    (hlength : ∀ segment ∈ segments, (packedSegment queue segment).length = segment.length)
    (hfits : k + (segments.map Segment.length).sum < 2 ^ 32) (hy : segments[y]? = some segment) :
    (packRegions queue k segments).2[y]? =
        some ⟨k + ((segments.take y).map Segment.length).sum, segment.dstOffset, segment.length⟩ ∧
      ∀ i < segment.length,
        (packRegions queue k segments).1[((segments.take y).map Segment.length).sum + i]? =
          (packedSegment queue segment)[i]? := by
  induction segments generalizing k y with
  | nil => simp at hy
  | cons head segments ih =>
    rw [List.map_cons, List.sum_cons] at hfits
    obtain ⟨hhead, hrest⟩ := List.forall_mem_cons.mp hlength
    rw [packRegions]
    dsimp only
    cases y with
    | zero =>
      rw [List.getElem?_cons_zero, Option.some.injEq] at hy
      subst hy
      rw [List.take_zero, List.map_nil, List.sum_nil]
      refine ⟨?_, fun i hi => ?_⟩
      · rw [List.getElem?_cons_zero, u32, Nat.mod_eq_of_lt (by omega), Nat.add_zero]
      · rw [Nat.zero_add, List.getElem?_append_left (by omega)]
    | succ y =>
      rw [List.getElem?_cons_succ] at hy
      obtain ⟨hregion, hbytes⟩ := ih (k := k + head.length) hrest (by omega) hy
      rw [List.take_succ_cons, List.map_cons, List.sum_cons]
      refine ⟨?_, fun i hi => ?_⟩
      · rw [List.getElem?_cons_succ, hregion, Nat.add_assoc]
      · rw [List.getElem?_append_right (by omega), ← hbytes i hi, hhead]
        congr 1
        omega

/-- Where all updates have a payload, a segment packs what a blit would copy. -/
theorem packedSegment_eq (hpacks : Packs queue buffer) (h : BatchFacts queue buffer info)
    (hsegment : segment ∈ info.segments) :
    packedSegment queue segment = (segmentWrite queue segment).values := by
  obtain ⟨before, update, after, hsplit, hindex, hdst, -⟩ := h.sound segment hsegment
  have hfound : queue[segment.updateIndex]? = some update := by
    rw [hindex, hsplit, List.getElem?_append_right le_rfl, Nat.sub_self, List.getElem?_cons_zero]
  obtain ⟨-, hpayload⟩ := hpacks.2 update (by rw [hsplit]; simp) hdst
  obtain ⟨bytes, hbytes⟩ := Option.isSome_iff_exists.mp hpayload
  simp only [packedSegment, segmentWrite, hfound, hbytes, Option.getD_some]
  rw [update.payload_eq bytes hbytes]

theorem BatchFacts.length_segmentWrite (h : BatchFacts queue buffer info)
    (hsegment : segment ∈ info.segments) :
    (segmentWrite queue segment).values.length = segment.length := by
  obtain ⟨before, update, after, hsplit, hindex, hdst, hpos, -⟩ := h.sound segment hsegment
  have hlast := (h.covers_iff (x := segment.dstOffset + segment.length - 1) hsegment).mpr (by omega)
  have hle := (segmentWrite_covers hlast).2
  have hstop := hlast.2
  refine Nat.le_antisymm ?_ ?_
  · simp only [segmentWrite]
    split
    · exact Nat.zero_le _
    · exact List.length_take_le _ _
  · rw [Write.stop] at hstop
    simp only [segmentWrite] at hstop ⊢
    omega

/-- A copy of bytes that are in the source as a slice covers its part of the slice, with its bytes.
-/
theorem piece_spec {src slice : List Byte} {start dst byteOffset : Nat}
    (hbytes : ∀ i < slice.length, src[start + i]? = slice[i]?) :
    ((piece src start dst slice.length byteOffset).Covers x ↔
      dst + byteOffset ≤ x ∧ x < dst + byteOffset + 16 ∧ x < dst + slice.length) ∧
      ((piece src start dst slice.length byteOffset).Covers x → ∀ value,
        slice[x - dst]? = some value →
          (piece src start dst slice.length byteOffset).At x value) := by
  rw [piece]
  split
  · next hend =>
    have hnone : ¬(⟨0, []⟩ : Write Byte).Covers x := fun hcovers => by
      have hlt := hcovers.2
      simp [Write.stop] at hlt
    refine ⟨iff_of_false hnone (by omega), fun hcovers => absurd hcovers hnone⟩
  · next hin =>
    rw [Nat.not_le] at hin
    have hread : ∀ i < min 16 (slice.length - byteOffset),
        ((src.drop (start + byteOffset)).take (min 16 (slice.length - byteOffset)))[i]? =
          slice[byteOffset + i]? := by
      intro i hi
      rw [List.getElem?_take_of_lt hi, List.getElem?_drop, Nat.add_assoc]
      exact hbytes _ (by omega)
    have hat : ∀ value, dst + byteOffset ≤ x →
        x < dst + byteOffset + min 16 (slice.length - byteOffset) → slice[x - dst]? = some value →
        (⟨dst + byteOffset, (src.drop (start + byteOffset)).take
          (min 16 (slice.length - byteOffset))⟩ : Write Byte).At x value := by
      intro value hle hlt hvalue
      refine ⟨hle, ?_⟩
      rw [hread _ (by simp only; omega), ← hvalue]
      congr 1
      simp only
      omega
    have htake : ((src.drop (start + byteOffset)).take
        (min 16 (slice.length - byteOffset))).length ≤ min 16 (slice.length - byteOffset) :=
      List.length_take_le _ _
    refine ⟨⟨fun hcovers => ?_, fun hinside => ?_⟩, fun hcovers value hvalue => ?_⟩
    · have hle := hcovers.1
      have hlt := hcovers.2
      rw [Write.stop] at hlt
      simp only at hle hlt
      omega
    · obtain ⟨hle, hlt, hend⟩ := hinside
      have hindex : x - dst < slice.length := by omega
      exact (hat _ hle (by omega) (List.getElem?_eq_getElem hindex)).covers
    · have hle := hcovers.1
      have hlt := hcovers.2
      rw [Write.stop] at hlt
      simp only at hle hlt
      exact hat value hle (by omega) hvalue

/-- A copy whose start is aligned, where it is of 16 bytes or more, has a result in every thread. -/
theorem copyPiece_eq {src : List Byte} {start dst byteLength : Nat}
    (h : 16 ≤ byteLength → 16 ∣ start ∧ 16 ∣ dst) (p : Nat) :
    copyPiece src start dst byteLength (p * 16) =
    some (piece src start dst byteLength (p * 16)) := by
  rw [copyPiece, if_neg]
  rintro ⟨hwhole, hunaligned⟩
  obtain ⟨hstart, hdst⟩ := h (by omega)
  exact hunaligned ⟨by omega, by omega⟩

/-- The first thread of a copy of 16 bytes or more has a result only where the start is aligned. -/
theorem aligned_of_copyPiece {src : List Byte} {start dst byteLength : Nat}
    (h : ∃ w, copyPiece src start dst byteLength 0 = some w) :
    16 ≤ byteLength → 16 ∣ start ∧ 16 ∣ dst := by
  intro hwhole
  obtain ⟨w, hw⟩ := h
  by_contra hunaligned
  rw [copyPiece, if_pos ⟨hwhole, hunaligned⟩] at hw
  cases hw

theorem mapM_eq_map {α β : Type} {f : α → Option β} {g : α → β} {xs : List α}
    (h : ∀ x ∈ xs, f x = some (g x)) : xs.mapM f = some (xs.map g) := by
  induction xs with
  | nil => rfl
  | cons x xs ih =>
    obtain ⟨hx, hxs⟩ := List.forall_mem_cons.mp h
    rw [List.mapM_cons, hx, ih hxs]
    rfl

theorem exists_of_mapM {α β : Type} {f : α → Option β} {xs : List α} {ys : List β}
    (h : xs.mapM f = some ys) : ∀ x ∈ xs, ∃ y, f x = some y := by
  induction xs generalizing ys with
  | nil => exact List.forall_mem_nil _
  | cons x xs ih =>
    rw [List.mapM_cons] at h
    obtain ⟨y, hy, h⟩ := Option.bind_eq_some_iff.mp h
    obtain ⟨ys', hys, -⟩ := Option.bind_eq_some_iff.mp h
    exact List.forall_mem_cons.mpr ⟨⟨y, hy⟩, ih hys⟩

theorem mem_grid {regionCount maxRegionBytes : Nat} {pos : Nat × Nat} :
    pos ∈ grid regionCount maxRegionBytes ↔ (regionCount ≠ 0 ∧ maxRegionBytes ≠ 0) ∧
      pos.1 < u32 (maxRegionBytes + 15) / 16 ∧ pos.2 < regionCount := by
  unfold grid
  split
  · next hnone =>
    refine iff_of_false (List.not_mem_nil) fun h => ?_
    rcases hnone with hzero | hzero
    · exact h.1.1 hzero
    · exact h.1.2 hzero
  · next hsome =>
    obtain ⟨p, y⟩ := pos
    rw [List.mem_product, List.mem_range, List.mem_range]
    exact (and_iff_right (not_or.mp hsome)).symm

/-- Two segments with a byte in common are one. -/
theorem BatchFacts.eq_of_common (h : BatchFacts queue buffer info) {r s : Segment}
    (hr : r ∈ info.segments) (hs : s ∈ info.segments) (hrx : r.dstOffset ≤ x)
    (hxr : x < r.dstOffset + r.length) (hsx : s.dstOffset ≤ x) (hxs : x < s.dstOffset + s.length) :
    r = s := by
  by_contra hne
  have hsymm : Std.Symm fun r s : Segment => Avoids r.range.1 r.range.2 s.range :=
    ⟨fun r s havoids => by
      simp only [Avoids] at havoids ⊢
      omega⟩
  have havoids := h.disjoint.forall hr hs hne
  simp only [Avoids, Segment.range] at havoids
  omega

/-- A segment is a longest stretch. -/
theorem BatchFacts.exists_longest (h : BatchFacts queue buffer info)
    (hsegment : segment ∈ info.segments) :
    ∃ before update after, queue = before ++ update :: after ∧
      segment.updateIndex = before.length ∧ update.dst = buffer ∧
      Longest buffer update after segment.dstOffset (segment.dstOffset + segment.length) := by
  obtain ⟨before, update, after, hsplit, hindex, hdst, hpos, -, hstretch⟩ :=
      h.sound segment hsegment
  refine ⟨before, update, after, hsplit, hindex, hdst, hstretch, by omega,
      fun a' b' ha hb hlonger => ?_⟩
  obtain ⟨found, hfound, -, hle, hge⟩ :=
    h.complete before update after a' b' hsplit hdst (by omega) hlonger
  obtain rfl := h.eq_of_common (x := segment.dstOffset) hfound hsegment
    (by omega) (by omega) le_rfl (by omega)
  omega

/-- A longest stretch is a segment. -/
theorem BatchFacts.exists_of_longest (h : BatchFacts queue buffer info)
    {before after : List PendingBufferUpdate} {update : PendingBufferUpdate}
    (hsplit : queue = before ++ update :: after) (hdst : update.dst = buffer)
    (hlongest : Longest buffer update after a b) :
    ∃ segment ∈ info.segments, segment.updateIndex = before.length ∧ segment.dstOffset = a ∧
      segment.dstOffset + segment.length = b := by
  have hab := hlongest.nonempty
  obtain ⟨segment, hsegment, hindex, ha, hb⟩ :=
    h.complete before update after a b hsplit hdst hab hlongest.toStretch
  obtain ⟨before', update', after', hsplit', hindex', -, -, -, hstretch⟩ := h.sound segment hsegment
  obtain ⟨rfl, hrest⟩ := List.append_inj (hsplit.symm.trans hsplit') (by omega)
  obtain ⟨rfl, rfl⟩ := List.cons.inj hrest
  obtain ⟨hstart, hstop⟩ := hlongest.longest _ _ ha hb hstretch
  exact ⟨segment, hsegment, hindex, hstart, hstop⟩

/-- A byte that is packed before a segment comes from a later update, or from the same one. -/
theorem BatchFacts.exists_later (h : BatchFacts queue buffer info)
    {before after : List PendingBufferUpdate} {update : PendingBufferUpdate}
    (hsegment : segment ∈ info.segments) (hsplit : queue = before ++ update :: after)
    (hdst : update.dst = buffer) (hindex : segment.updateIndex = before.length)
    (hx : (update.dstOffset ≤ x ∧ x < segment.dstOffset) ∨ ∃ r ∈ (after.filter fun later =>
      later.dst = buffer).map PendingBufferUpdate.range, r.1 ≤ x ∧ x < r.2) :
    ∃ before' update' after', Newest queue buffer x before' update' after' ∧
      (before.length < before'.length ∨ before.length = before'.length ∧ x <
        segment.dstOffset) := by
  obtain ⟨front, found, back, hsplit', hindex', -, hpos, -, hstretch⟩ := h.sound segment hsegment
  obtain ⟨rfl, hrest⟩ := List.append_inj (hsplit.symm.trans hsplit') (by omega)
  obtain ⟨rfl, rfl⟩ := List.cons.inj hrest
  rcases hx with ⟨hstart, hlt⟩ | ⟨range, hmem, hstart, hstop⟩
  · have hstop : x < update.stop := by
      have hle := hstretch.stop
      omega
    by_cases hafter : ∃ later ∈ after, later.dst = buffer ∧ later.dstOffset ≤ x ∧ x < later.stop
    · obtain ⟨between, later, rest, hnewest⟩ := exists_newest hafter
      refine ⟨before ++ update :: between, later, rest, ⟨?_, hnewest.dst, hnewest.start,
        hnewest.stop, hnewest.free⟩, Or.inl ?_⟩
      · rw [hsplit, hnewest.split, List.append_assoc, List.cons_append]
      · simp
    · exact ⟨before, update, after, ⟨hsplit, hdst, hstart, hstop,
          fun later hlater hlaterDst hcovers =>
        hafter ⟨later, hlater, hlaterDst, hcovers⟩⟩, Or.inr ⟨rfl, hlt⟩⟩
  · obtain ⟨later, hlater, rfl⟩ := List.mem_map.mp hmem
    obtain ⟨hlater, hlaterDst⟩ := List.mem_filter.mp hlater
    obtain ⟨between, found, rest, hnewest⟩ := @exists_newest after buffer x
      ⟨later, hlater, by simpa using hlaterDst, hstart, hstop⟩
    refine ⟨before ++ update :: between, found, rest, ⟨?_, hnewest.dst, hnewest.start, hnewest.stop,
      hnewest.free⟩, Or.inl ?_⟩
    · rw [hsplit, hnewest.split, List.append_assoc, List.cons_append]
    · simp

/-- **The bytes packed before a segment** are what later updates cover and what its own update
covers before it. -/
theorem BatchFacts.sum_take (h : BatchFacts queue buffer info)
    {before after : List PendingBufferUpdate} {update : PendingBufferUpdate} {y : Nat}
    (hy : info.segments[y]? = some segment) (hsplit : queue = before ++ update :: after)
    (hdst : update.dst = buffer) (hindex : segment.updateIndex = before.length) :
    ((info.segments.take y).map Segment.length).sum =
      packedBefore buffer update after segment.dstOffset := by
  have hsegment := List.mem_of_getElem? hy
  have hcut : info.segments = info.segments.take y ++ segment :: info.segments.drop (y + 1) := by
    obtain ⟨hlt, hget⟩ := List.getElem?_eq_some_iff.mp hy
    rw [← hget, ← List.drop_eq_getElem_cons hlt, List.take_append_drop]
  have hpairwise := h.ordered
  rw [hcut, List.pairwise_append, List.pairwise_cons] at hpairwise
  obtain ⟨-, ⟨hbehind, -⟩, hahead⟩ := hpairwise
  have hsum : ((info.segments.take y).map Segment.length).sum =
      (cells ((info.segments.take y).map Segment.range)).card := by
    rw [card_cells (List.pairwise_map.mpr (h.disjoint.sublist (List.take_sublist y _))),
      List.map_map]
    congr 2
    funext segment
    simp [Segment.range]
  rw [hsum, packedBefore]
  congr 1
  ext x
  rw [mem_cells, mem_cells, List.exists_mem_cons_iff]
  constructor
  · rintro ⟨range, hmem, hstart, hstop⟩
    obtain ⟨found, hfound, rfl⟩ := List.mem_map.mp hmem
    have hmember := List.mem_of_mem_take hfound
    obtain ⟨before', update', after', hnewest, hindex', -⟩ := h.newest hmember hstart hstop
    have hsplit' := hsplit.symm.trans hnewest.split
    rcases hahead found hfound segment List.mem_cons_self with hlt | ⟨heq, hlt⟩
    · -- it is of a later update
      refine Or.inr ⟨update'.range, List.mem_map_of_mem (List.mem_filter.mpr ⟨?_, ?_⟩),
        hnewest.start, hnewest.stop⟩
      · rcases List.append_eq_append_iff.mp hsplit' with ⟨between, rfl, hrest⟩ | ⟨between, rfl, -⟩
        · cases between with
          | nil => simp only [List.append_nil] at hindex'; omega
          | cons head between =>
            obtain ⟨-, rfl⟩ := List.cons.inj hrest
            simp
        · rw [List.length_append] at hindex
          omega
      · simpa using hnewest.dst
    · -- it is of the same update, before the segment
      obtain ⟨rfl, hrest⟩ := List.append_inj hsplit' (by omega)
      obtain ⟨rfl, rfl⟩ := List.cons.inj hrest
      refine Or.inl ⟨hnewest.start, ?_⟩
      by_contra hge
      rw [Nat.not_lt] at hge
      obtain ⟨-, -, -, -, -, -, hpos, -⟩ := h.sound segment hsegment
      have hsame := h.eq_of_common (x := segment.dstOffset) hmember hsegment (by omega)
        (lt_of_le_of_lt hge hstop) le_rfl (by omega)
      subst hsame
      omega
  · intro hx
    obtain ⟨before', update', after', hnewest, hlater⟩ :=
        h.exists_later hsegment hsplit hdst hindex hx
    obtain ⟨found, hfound, hindex', hstart, hstop⟩ :=
      h.complete before' update' after' x (x + 1) hnewest.split hnewest.dst x.lt_succ_self
        hnewest.stretch
    refine ⟨found.range, List.mem_map_of_mem ?_, hstart, hstop⟩
    rw [hcut] at hfound
    rcases List.mem_append.mp hfound with hfound | hfound
    · exact hfound
    · rcases List.mem_cons.mp hfound with rfl | hfound
      · omega
      · have hafter := hbehind found hfound
        omega

/-- Whole pieces of the packed batch are aligned where those of all regions are. -/
theorem BatchFacts.packAligned_iff (h : BatchFacts queue buffer info) :
    PackAligned queue buffer ↔ ∀ y segment, info.segments[y]? = some segment → 16 ≤ segment.length →
      16 ∣ ((info.segments.take y).map Segment.length).sum ∧ 16 ∣ segment.dstOffset := by
  constructor
  · intro haligned y segment hy hwhole
    obtain ⟨before, update, after, hsplit, hindex, hdst, hlongest⟩ :=
      h.exists_longest (List.mem_of_getElem? hy)
    rw [h.sum_take hy hsplit hdst hindex]
    exact haligned before update after _ _ hsplit hdst hlongest (by omega)
  · intro haligned before update after a b hsplit hdst hlongest hwhole
    obtain ⟨segment, hsegment, hindex, rfl, rfl⟩ := h.exists_of_longest hsplit hdst hlongest
    obtain ⟨y, hlt, hy⟩ := List.getElem_of_mem hsegment
    have hy' : info.segments[y]? = some segment := by rw [List.getElem?_eq_getElem hlt, hy]
    rw [← h.sum_take hy' hsplit hdst hindex]
    exact haligned y segment hy' (by omega)

/-- What a thread copies where the copy is defined. -/
def regionWrite (src : List Byte) (regions : List BufferCopyRegion) (pos : Nat × Nat) :
    Write Byte :=
  match regions[pos.2]? with
  | none => ⟨0, []⟩
  | some region => piece src region.srcOffset region.dstOffset region.byteLength (u32 (pos.1 * 16))

/-- The region of a segment in the packed batch, and its bytes. -/
theorem BatchFacts.region (h : BatchFacts queue buffer info) (hpacks : Packs queue buffer) {y : Nat}
    (hy : info.segments[y]? = some segment) :
    (packedSegment queue segment).length = segment.length ∧
      (packRegions queue 0 info.segments).2[y]? =
        some ⟨((info.segments.take y).map Segment.length).sum, segment.dstOffset,
          (packedSegment queue segment).length⟩ ∧
      ∀ i < (packedSegment queue segment).length,
        (packRegions queue 0 info.segments).1[((info.segments.take y).map Segment.length).sum +
          i]? =
          (packedSegment queue segment)[i]? := by
  have hslice : ∀ segment ∈ info.segments, (packedSegment queue segment).length = segment.length :=
    fun segment hsegment => by rw [packedSegment_eq hpacks h hsegment,
      h.length_segmentWrite hsegment]
  have hregion := packRegions_spec (k := 0) hslice (by rw [Nat.zero_add]; exact h.total) hy
  rw [Nat.zero_add] at hregion
  rw [hslice segment (List.mem_of_getElem? hy)]
  exact ⟨rfl, hregion⟩

/-- **The dispatch**, with its threads in any order, where its width does not wrap around: its
writes are those of the updates one by one. -/
theorem BatchFacts.dispatch (h : BatchFacts queue buffer info) (hpacks : Packs queue buffer)
    (hmax : ∀ segment ∈ info.segments, segment.length ≤ info.maxRegionBytes)
    (hwidth : info.maxRegionBytes + 15 < 2 ^ 32) {order : List (Nat × Nat)}
    (horder : order.Perm (batchThreads info)) (mem : Nat → Byte) :
    Write.run mem (order.map (regionWrite (packRegions queue 0 info.segments).1
      (packRegions queue 0 info.segments).2)) = Write.run mem (plainWrites queue buffer) := by
  refine run_eq_plain mem (fun x before update after hnewest => ?_) fun w hw x hcovers => ?_
  · obtain ⟨segment, hsegment, hstart, hstop⟩ := h.exists_segment hnewest
    obtain ⟨y, hlt, hy⟩ := List.getElem_of_mem hsegment
    have hy' : info.segments[y]? = some segment := by rw [List.getElem?_eq_getElem hlt, hy]
    obtain ⟨hslice, hfound, hbytes⟩ := h.region hpacks hy'
    have hle := hmax segment hsegment
    -- the thread that copies the byte
    have hthread : ((x - segment.dstOffset) / 16, y) ∈ order := by
      rw [horder.mem_iff, batchThreads, mem_grid, u32, Nat.mod_eq_of_lt hwidth]
      refine ⟨⟨by omega, by omega⟩, ?_, hlt⟩
      simp only
      omega
    refine ⟨_, List.mem_map_of_mem hthread, ?_⟩
    simp only [regionWrite, hfound]
    rw [(piece_spec hbytes).1, u32, Nat.mod_eq_of_lt (by omega)]
    omega
  · obtain ⟨⟨p, y⟩, hthread, rfl⟩ := List.mem_map.mp hw
    rw [horder.mem_iff, batchThreads, mem_grid, u32, Nat.mod_eq_of_lt hwidth] at hthread
    obtain ⟨-, hp, hy⟩ := hthread
    simp only at hp hy
    have hsegment : info.segments[y] ∈ info.segments := List.getElem_mem hy
    obtain ⟨hslice, hfound, hbytes⟩ := h.region hpacks (List.getElem?_eq_getElem hy)
    simp only [regionWrite, hfound] at hcovers ⊢
    obtain ⟨hiff, hagree⟩ :=
      @piece_spec x _ _ _ info.segments[y].dstOffset (u32 (p * 16)) hbytes
    obtain ⟨hle, -, hlt⟩ := hiff.mp hcovers
    have hstart : info.segments[y].dstOffset ≤ x := by omega
    obtain ⟨before, update, after, hnewest, -, -⟩ := h.newest hsegment hstart (by omega)
    refine ⟨before, update, after, hnewest, fun value hat => hagree hcovers value ?_⟩
    obtain ⟨hupdate, hvalue⟩ := h.slice_at hsegment hstart (by omega) hnewest hat
    rw [packedSegment_eq hpacks h hsegment]
    simp only [segmentWrite, hupdate]
    exact hvalue

/-- The dispatch is defined where the regions are aligned. -/
theorem BatchFacts.dispatch_defined (h : BatchFacts queue buffer info) (hpacks : Packs queue buffer)
    (hwidth : info.maxRegionBytes + 15 < 2 ^ 32) (haligned : PackAligned queue buffer)
    {order : List (Nat × Nat)} (horder : order.Perm (batchThreads info)) :
    order.mapM (copyBufferRegions (packRegions queue 0 info.segments).1
        (packRegions queue 0 info.segments).2) =
      some (order.map (regionWrite (packRegions queue 0 info.segments).1
        (packRegions queue 0 info.segments).2)) := by
  refine mapM_eq_map fun pos hpos => ?_
  obtain ⟨p, y⟩ := pos
  rw [horder.mem_iff, batchThreads, mem_grid, u32, Nat.mod_eq_of_lt hwidth] at hpos
  obtain ⟨-, hp, hy⟩ := hpos
  simp only at hp hy
  obtain ⟨hslice, hfound, -⟩ := h.region hpacks (List.getElem?_eq_getElem hy)
  have hwhole := h.packAligned_iff.mp haligned y _ (List.getElem?_eq_getElem hy)
  simp only [copyBufferRegions, regionWrite, hfound, u32,
    Nat.mod_eq_of_lt (show p * 16 < 2 ^ 32 by omega)]
  exact copyPiece_eq (by rwa [hslice]) p

/-- Only there: the first thread of a region shows how it is aligned. -/
theorem BatchFacts.packAligned_of_dispatch (h : BatchFacts queue buffer info)
    (hpacks : Packs queue buffer)
    (hmax : ∀ segment ∈ info.segments, segment.length ≤ info.maxRegionBytes)
    (hwidth : info.maxRegionBytes + 15 < 2 ^ 32) {writes : List (Write Byte)}
    (hwrites : (batchThreads info).mapM (copyBufferRegions (packRegions queue 0 info.segments).1
      (packRegions queue 0 info.segments).2) = some writes) : PackAligned queue buffer := by
  refine h.packAligned_iff.mpr fun y segment hy hwhole => ?_
  obtain ⟨hslice, hfound, -⟩ := h.region hpacks hy
  have hle := hmax segment (List.mem_of_getElem? hy)
  have hlt := (List.getElem?_eq_some_iff.mp hy).1
  have hthread : (0, y) ∈ batchThreads info := by
    rw [batchThreads, mem_grid, u32, Nat.mod_eq_of_lt hwidth]
    exact ⟨⟨by omega, by omega⟩, by simp only; omega, hlt⟩
  have hdefined := exists_of_mapM hwrites (0, y) hthread
  simp only [copyBufferRegions, hfound] at hdefined
  exact aligned_of_copyPiece hdefined (by rwa [hslice])

/-! ## The copies one by one -/

/-- The pieces that the threads of `CopyBufferBytes` copy. -/
def pieces (update : PendingBufferUpdate) : List (Write Byte) :=
  (List.range ((update.length + 15) / 16)).map fun p =>
    piece update.contents 0 update.dstOffset update.length (p * 16)

/-- The pieces of an update leave what the update leaves. -/
theorem run_pieces (update : PendingBufferUpdate) (mem : Nat → Byte) :
    Write.run mem (pieces update) = Write.apply mem update.write := by
  have hbytes : ∀ i < update.contents.length, update.contents[0 + i]? = update.contents[i]? :=
    fun i _ => by rw [Nat.zero_add]
  funext x
  by_cases hcovers : update.write.Covers x
  · obtain ⟨value, hat⟩ := hcovers.exists_at
    rw [Write.apply_of_at hat]
    obtain ⟨hstart, hstop⟩ := hcovers
    simp only [PendingBufferUpdate.write, Write.stop] at hstart hstop
    refine Write.run_eq_of_agree ?_ fun w hw hin => ?_
    · refine ⟨_, List.mem_map_of_mem (List.mem_range.mpr
        (show (x - update.dstOffset) / 16 < _ from ?_)), ?_⟩
      · rw [PendingBufferUpdate.length]
        omega
      · rw [PendingBufferUpdate.length, (piece_spec hbytes).1]
        omega
    · obtain ⟨p, -, rfl⟩ := List.mem_map.mp hw
      exact (piece_spec hbytes).2 hin value hat.2
  · rw [Write.apply_of_not_covers hcovers]
    refine Write.run_of_not_covers fun w hw hin => hcovers ?_
    obtain ⟨p, -, rfl⟩ := List.mem_map.mp hw
    obtain ⟨hle, -, hlt⟩ := (piece_spec hbytes).1.mp hin
    exact ⟨by simp only [PendingBufferUpdate.write]; omega, hlt⟩

/-- A copy is defined where a whole piece of the update is aligned. -/
theorem copyWrites_eq {update : PendingBufferUpdate}
    (haligned : 16 ≤ update.length → 16 ∣ update.dstOffset) :
    copyWrites update = some (pieces update) := by
  refine mapM_eq_map fun p hp => ?_
  rw [List.mem_range] at hp
  have hfits := update.fits
  have hlength : update.length = update.contents.length := rfl
  rw [copyBufferBytes, u32, Nat.mod_eq_of_lt (by omega)]
  exact copyPiece_eq (fun hwhole => ⟨⟨0, rfl⟩, haligned hwhole⟩) p

theorem aligned_of_copyWrites {update : PendingBufferUpdate}
    (h : ∃ writes, copyWrites update = some writes) (hwhole : 16 ≤ update.length) :
    16 ∣ update.dstOffset := by
  obtain ⟨writes, hwrites⟩ := h
  have hdefined := exists_of_mapM hwrites 0 (List.mem_range.mpr (by omega))
  exact (aligned_of_copyPiece hdefined hwhole).2

/-- The copies of several updates leave what the updates leave. -/
theorem run_flatten_pieces (updates : List PendingBufferUpdate) (mem : Nat → Byte) :
    Write.run mem (updates.map pieces).flatten =
      Write.run mem (updates.map PendingBufferUpdate.write) := by
  induction updates generalizing mem with
  | nil => rfl
  | cons update updates ih =>
    rw [List.map_cons, List.flatten_cons, Write.run_append, run_pieces, ih, List.map_cons,
      Write.run_cons]

/-! ## All ways to flush -/

theorem removePendingBufferUpdatesFor_eq (queue : List PendingBufferUpdate) (buffer : Nat) :
    removePendingBufferUpdatesFor queue buffer = queue.filter fun update =>
      update.dst ≠ buffer := by
  suffices h : ∀ remaining : List PendingBufferUpdate,
      queue.foldl (fun remaining update => if update.dst ≠ buffer then remaining ++
        [update] else remaining)
        remaining = remaining ++ queue.filter fun update => update.dst ≠ buffer from h []
  induction queue with
  | nil => simp
  | cons update queue ih =>
    intro remaining
    rw [List.foldl_cons, ih]
    by_cases hdst : update.dst = buffer
    · rw [if_neg (not_not.mpr hdst), List.filter_cons_of_neg (by simpa using hdst)]
    · rw [if_pos hdst, List.filter_cons_of_pos (by simpa using hdst), List.append_assoc]
      rfl

/-- A stretch that is too long makes a region that is. -/
theorem BatchFacts.short_iff (h : BatchFacts queue buffer info) (hpacks : Packs queue buffer) :
    Short queue buffer ↔ info.maxRegionBytes + 15 < 2 ^ 32 := by
  obtain ⟨hall, hsome⟩ := h.max (h.packs.mpr hpacks).1
  constructor
  · intro hshort
    rcases hsome with hzero | ⟨segment, hsegment, heq⟩
    · omega
    · obtain ⟨before, update, after, hsplit, -, hdst, -, -, hstretch⟩ := h.sound segment hsegment
      have hlt := hshort before update after _ _ hsplit hdst hstretch
      omega
  · intro hmax before update after a b hsplit hdst hstretch
    by_cases hab : a < b
    · obtain ⟨segment, hsegment, -, hle, hge⟩ :=
        h.complete before update after a b hsplit hdst hab hstretch
      have hlength := hall segment hsegment
      omega
    · omega

/-- With a region of almost 4 GiB no thread runs. -/
theorem grid_wraps {regionCount maxRegionBytes : Nat} (h : 2 ^ 32 ≤ maxRegionBytes + 15)
    (hlt : maxRegionBytes < 2 ^ 32) : grid regionCount maxRegionBytes = [] := by
  rw [List.eq_nil_iff_forall_not_mem]
  intro pos hpos
  obtain ⟨-, hp, -⟩ := mem_grid.mp hpos
  have hmod : u32 (maxRegionBytes + 15) = maxRegionBytes + 15 - 2 ^ 32 := by
    rw [u32, Nat.mod_eq_sub_mod h, Nat.mod_eq_of_lt (by omega)]
  omega

/-- Then a byte of the region keeps its value, whatever it was. -/
theorem BatchFacts.short_of_compute
    (h : BatchFacts queue buffer (analyzePendingBufferUpdateBatch queue buffer))
    (hpacks : Packs queue buffer) {writes : List (Write Byte)}
    (hwrites : computeWrites queue buffer
      (batchThreads (analyzePendingBufferUpdateBatch queue buffer)) = some writes)
    (hcompute : ∀ mem, Write.run mem writes = Write.run mem (plainWrites queue buffer)) :
    Short queue buffer := by
  rw [h.short_iff hpacks]
  by_contra hwraps
  rw [Nat.not_lt] at hwraps
  obtain ⟨-, hsome⟩ := h.max (h.packs.mpr hpacks).1
  rcases hsome with hzero | ⟨segment, hsegment, heq⟩
  · omega
  · obtain ⟨before, update, after, hsplit, -, hdst, hpos, -, hstretch⟩ := h.sound segment hsegment
    have hnewest : Newest queue buffer segment.dstOffset before update after :=
      hstretch.newest hsplit hdst le_rfl (by omega)
    have hlt : (analyzePendingBufferUpdateBatch queue buffer).maxRegionBytes < 2 ^ 32 := by
      have hfits := update.fits
      have hstop := hstretch.stop
      simp only [PendingBufferUpdate.stop, PendingBufferUpdate.length] at hstop
      omega
    have hnone : writes = [] := by
      rw [computeWrites] at hwrites
      dsimp only at hwrites
      rw [if_pos (h.packs.mpr hpacks), batchThreads, grid_wraps hwraps hlt] at hwrites
      exact (Option.some.inj hwrites).symm
    obtain ⟨value, hat⟩ := hnewest.exists_at
    have hkept := congrFun (hcompute fun _ => if value = 0 then 1 else 0) segment.dstOffset
    rw [hnewest.run hat, hnone, Write.run_nil] at hkept
    split at hkept
    · next hvalue => simp [hvalue] at hkept
    · next hvalue => exact hvalue hkept.symm

/-- The compute path, where no stretch is too long and whole pieces are aligned. -/
theorem BatchFacts.compute
    (h : BatchFacts queue buffer (analyzePendingBufferUpdateBatch queue buffer))
    (hpacked : Packs queue buffer → Short queue buffer ∧ PackAligned queue buffer)
    (hplain : ¬Packs queue buffer → PlainAligned queue buffer) {order : List (Nat × Nat)}
    (horder : order.Perm (batchThreads (analyzePendingBufferUpdateBatch queue buffer))) :
    ∃ writes, computeWrites queue buffer order = some writes ∧
      ∀ mem, Write.run mem writes = Write.run mem (plainWrites queue buffer) := by
  rw [computeWrites]
  dsimp only
  split
  · next hpack =>
    have hpacks := h.packs.mp hpack
    obtain ⟨hshort, haligned⟩ := hpacked hpacks
    have hwidth := (h.short_iff hpacks).mp hshort
    exact ⟨_, h.dispatch_defined hpacks hwidth haligned horder,
      h.dispatch hpacks (h.max hpack.1).1 hwidth horder⟩
  · next hpack =>
    have haligned := hplain fun hpacks => hpack (h.packs.mpr hpacks)
    have hdefined : (queue.filter fun update => update.dst = buffer).mapM copyWrites = some _ :=
      mapM_eq_map fun update hupdate => by
        rw [List.mem_filter, decide_eq_true_eq] at hupdate
        exact copyWrites_eq (haligned update hupdate.1 hupdate.2)
    rw [hdefined]
    exact ⟨_, rfl, run_flatten_pieces _⟩

/-- Where the compute path is defined, whole pieces are aligned. -/
theorem BatchFacts.plainAligned_of_compute
    (h : BatchFacts queue buffer (analyzePendingBufferUpdateBatch queue buffer))
    (hplain : ¬Packs queue buffer) {order : List (Nat × Nat)} {writes : List (Write Byte)}
    (hwrites : computeWrites queue buffer order = some writes) : PlainAligned queue buffer := by
  rw [computeWrites] at hwrites
  dsimp only at hwrites
  rw [if_neg fun hpack => hplain (h.packs.mp hpack)] at hwrites
  obtain ⟨copies, hcopies, -⟩ := Option.map_eq_some_iff.mp hwrites
  intro update hupdate hdst
  exact aligned_of_copyWrites
    (exists_of_mapM hcopies update (List.mem_filter.mpr ⟨hupdate, decide_eq_true hdst⟩))

theorem BatchFacts.packAligned_of_compute
    (h : BatchFacts queue buffer (analyzePendingBufferUpdateBatch queue buffer))
    (hpacks : Packs queue buffer) (hshort : Short queue buffer) {writes : List (Write Byte)}
    (hwrites : computeWrites queue buffer
      (batchThreads (analyzePendingBufferUpdateBatch queue buffer)) = some writes) :
    PackAligned queue buffer := by
  rw [computeWrites] at hwrites
  dsimp only at hwrites
  rw [if_pos (h.packs.mpr hpacks)] at hwrites
  exact h.packAligned_of_dispatch hpacks (h.max (h.packs.mpr hpacks).1).1
    ((h.short_iff hpacks).mp hshort) hwrites

/-! ## Flushing everything -/

theorem plainWrites_remove {other : Nat} (hother : other ≠ buffer) :
    plainWrites (removePendingBufferUpdatesFor queue buffer) other = plainWrites queue other := by
  rw [plainWrites, removePendingBufferUpdatesFor_eq, List.filter_filter, plainWrites]
  congr 1
  refine List.filter_congr fun update _ => ?_
  by_cases hdst : update.dst = other
  · simp [hdst, hother]
  · simp [hdst]

theorem length_remove_lt (update : PendingBufferUpdate) (updates : List PendingBufferUpdate) :
    (removePendingBufferUpdatesFor (update :: updates) update.dst).length <
      (update :: updates).length := by
  rw [removePendingBufferUpdatesFor_eq, List.filter_cons_of_neg (by simp)]
  exact Nat.lt_succ_of_le (List.length_filter_le _ _)

/-- **Flushing everything** ends with an empty queue and every buffer as the updates one by one
leave it, by induction on the updates that are left. -/
theorem flushAll_spec {fuel : Nat} {s : QueueState} (hfuel : s.queue.length ≤ fuel) :
    (flushAll fuel s).queue = [] ∧
      ∀ buffer, (flushAll fuel s).contents buffer =
        Write.run (s.contents buffer) (plainWrites s.queue buffer) := by
  induction fuel generalizing s with
  | zero =>
    have hnil := List.length_eq_zero_iff.mp (Nat.le_zero.mp hfuel)
    exact ⟨hnil, fun buffer => by rw [hnil]; rfl⟩
  | succ fuel ih =>
    rw [flushAll]
    split
    · next hnil => exact ⟨hnil, fun buffer => by rw [hnil]; rfl⟩
    · next update updates hqueue =>
      have hshorter : (flushBatch s update.dst).queue.length ≤ fuel := by
        have hlt := length_remove_lt update updates
        rw [hqueue] at hfuel
        rw [flushBatch, hqueue]
        simp only
        omega
      obtain ⟨hempty, hcontents⟩ := ih hshorter
      refine ⟨hempty, fun buffer => ?_⟩
      rw [hcontents buffer, flushBatch]
      dsimp only
      split
      · next hbuffer =>
        have hnone : plainWrites (removePendingBufferUpdatesFor s.queue update.dst)
            buffer = [] := by
          rw [hbuffer, plainWrites, removePendingBufferUpdatesFor_eq, List.filter_filter,
            List.filter_eq_nil_iff.mpr fun _ _ => by simp]
          rfl
        rw [hnone, Write.run_nil, hbuffer]
        exact (analyze_spec s.queue update.dst).blit (List.Perm.refl _) _
      · next hbuffer => rw [plainWrites_remove hbuffer]

/-- **Batched updates are the updates one by one** exactly when no stretch is too long for the
dispatch of a batch that is packed, and every copy of 16 bytes at once is aligned. -/
theorem batched_iff (queue : List PendingBufferUpdate) (buffer : Nat) :
    Batched queue buffer ↔
      (Packs queue buffer → Short queue buffer ∧ PackAligned queue buffer) ∧
        (¬Packs queue buffer → PlainAligned queue buffer) := by
  have h := analyze_spec queue buffer
  constructor
  · intro hbatched
    obtain ⟨writes, hwrites, hcompute⟩ := hbatched.compute _ (List.Perm.refl _)
    refine ⟨fun hpacks => ?_, fun hplain => h.plainAligned_of_compute hplain hwrites⟩
    have hshort := h.short_of_compute hpacks hwrites hcompute
    exact ⟨hshort, h.packAligned_of_compute hpacks hshort hwrites⟩
  · rintro ⟨hpacked, hplain⟩
    refine ⟨h.disjoint, fun x => ⟨?_, ?_⟩, fun segment hsegment x hstart hstop => ?_,
      fun order horder mem => h.blit horder mem, fun order horder =>
        h.compute hpacked hplain horder,
      fun mem x hnone => run_plain_outside mem hnone, removePendingBufferUpdatesFor_eq queue buffer,
      fun contents => flushAll_spec le_rfl⟩
    · rintro ⟨segment, hsegment, hcovers⟩
      obtain ⟨hstart, hstop⟩ := segmentWrite_covers hcovers
      obtain ⟨before, update, after, hnewest, -, -⟩ := h.newest hsegment hstart hstop
      exact ⟨update.write, mem_plainWrites.mpr ⟨update, by rw [hnewest.split]; simp, hnewest.dst,
        rfl⟩, hnewest.start, hnewest.stop⟩
    · rintro ⟨w, hw, hcovers⟩
      obtain ⟨update, hupdate, hdst, rfl⟩ := mem_plainWrites.mp hw
      obtain ⟨before, found, after, hnewest⟩ := exists_newest ⟨update, hupdate, hdst, hcovers⟩
      obtain ⟨segment, hsegment, hin⟩ := h.exists_segment hnewest
      exact ⟨segment, hsegment, (h.covers_iff hsegment).mpr hin⟩
    · obtain ⟨before, update, after, hnewest, hindex, hsrc⟩ := h.newest hsegment hstart hstop
      exact ⟨before, update, after, hnewest.split, hindex, hnewest.dst, hnewest.start, hnewest.stop,
        hsrc, hnewest.free⟩

/-- An update that sets bytes to one value, with a payload. -/
def packableUpdate (value : Byte) (dstOffset length : Nat) (h : dstOffset + length < 2 ^ 32) :
    PendingBufferUpdate where
  dst := 0
  dstOffset
  contents := List.replicate length value
  allowComputePack := true
  payload := some (List.replicate length value)
  payload_eq _ hbytes := (Option.some.inj hbytes).symm
  fits := by rwa [List.length_replicate]

/-- 16 bytes, and the byte behind them. -/
def unalignedUpdates : List PendingBufferUpdate :=
  [packableUpdate 1 0 16 (by decide), packableUpdate 2 16 1 (by decide)]

/-- The byte is packed first, and the 16 bytes are then copied from an odd address. -/
theorem unalignedUpdates_not_copied : ¬Batched unalignedUpdates 0 := by
  intro hbatched
  obtain ⟨writes, hwrites, -⟩ := hbatched.compute _ (List.Perm.refl _)
  have hnone : computeWrites unalignedUpdates 0
      (batchThreads (analyzePendingBufferUpdateBatch unalignedUpdates 0)) = none :=
        by decide
  rw [hnone] at hwrites
  cases hwrites

end UpdateBatch

end Dxmt
