import Mathlib.Data.List.Nodup
import Mathlib.Data.Nat.Bitwise

/-!
# The ring of bump allocators: `RingBumpState`

`RingBumpState` hands out parts of blocks. Only the newest block is filled; when it is full the
oldest one is rewound, provided the chunk that used it last is coherent, or a new block is pushed. A
block of another size than `BlockSize` serves one large request and is dropped, not rewound.
`free_blocks` drops the oldest blocks when they are too old or were idle too often.

Sizes and ids are `Nat`: there is no `size_t` overflow. A block is named by the number of the
`allocator_.allocate` call that made it. The mutex makes each call one step.

Results: `FifoInv` says that every grant whose chunk is not coherent lies in the filled part of a
block that is still in the queue. `allocate_spec`, `freeLoop_spec` and `FifoInv.suballocate` say
what the operations do to it, and `grants_safe` is the statement about a run.

Source: `dxmt_ring_bump_allocator.hpp`.
-/

namespace Dxmt

/-- `kStagingBlockLifetime`. -/
def kStagingBlockLifetime : Nat := 300

/-- `align(what, to)`: `(what + to - 1) & ~(to - 1)`. -/
def align (what dest : Nat) : Nat := Nat.ldiff (what + dest - 1) (dest - 1)

theorem align_two_pow (what k : Nat) :
    align what (2 ^ k) = (what + 2 ^ k - 1) / 2 ^ k * 2 ^ k := by
  rw [align, ← Nat.shiftRight_eq_div_pow, ← Nat.shiftLeft_eq]
  apply Nat.eq_of_testBit_eq
  intro i
  rw [Nat.testBit_ldiff, Nat.testBit_two_pow_sub_one, Nat.testBit_shiftLeft]
  by_cases h : i < k
  · simp [h, Nat.not_le.mpr h]
  · rw [Nat.testBit_shiftRight]
    simp [h, Nat.le_of_not_lt h]

theorem dvd_align (what k : Nat) : 2 ^ k ∣ align what (2 ^ k) := by
  rw [align_two_pow]
  exact Nat.dvd_mul_left _ _

theorem le_align (what k : Nat) : what ≤ align what (2 ^ k) := by
  have hpos := Nat.two_pow_pos k
  have hdiv := Nat.div_add_mod (what + 2 ^ k - 1) (2 ^ k)
  have hmod := Nat.mod_lt (what + 2 ^ k - 1) hpos
  rw [align_two_pow, Nat.mul_comm]
  omega

theorem align_zero (k : Nat) : align 0 (2 ^ k) = 0 := by
  have hpos := Nat.two_pow_pos k
  rw [align_two_pow, Nat.div_eq_of_lt (by omega), Nat.zero_mul]

/-- `Allocator::Block`, with the size it was allocated with. -/
structure Block where
  id : Nat
  size : Nat
deriving DecidableEq

/-- `RingBumpState::Allocation`. -/
structure Allocation where
  allocatedSize : Nat
  totalSize : Nat
  lastUsedSeqId : Nat
  incTimeToLive : Nat
  block : Block
deriving DecidableEq

/-- `RingBumpState`: the queue, oldest allocation first, and how many blocks `allocator_` made. -/
structure RingBumpState where
  fifo : List Allocation
  nextBlock : Nat

namespace RingBumpState

variable (BlockSize : Nat)

/-- `suballocate` from the allocation at the back, which is `latest`: the state, the block and the
offset. -/
def suballocate (s : RingBumpState) (latest : Allocation) (size alignment : Nat) :
    RingBumpState × Block × Nat :=
  let offset := align latest.allocatedSize alignment
  ({ s with fifo := s.fifo.dropLast ++ [{ latest with allocatedSize := offset + size }] },
    latest.block, offset)

/-- The `while` loop of `allocate_or_reuse_block`: the queue without the allocation to use, and that
allocation if one is rewound. -/
def reuseBlock (seqId coherentId blockSize : Nat) :
    List Allocation → List Allocation × Option Allocation
  | [] => ([], none)
  | front :: fifo =>
    if front.lastUsedSeqId < coherentId then
      if front.totalSize ≠ BlockSize then reuseBlock seqId coherentId blockSize fifo
      else if blockSize ≤ front.totalSize then
        (fifo, some { front with lastUsedSeqId := seqId, allocatedSize := 0, incTimeToLive := 0 })
      else (front :: fifo, none)
    else (front :: fifo, none)

/-- `allocate_or_reuse_block`: the state, and the allocation at its back. -/
def allocateOrReuseBlock (s : RingBumpState) (seqId coherentId blockSize : Nat) :
    RingBumpState × Allocation :=
  match reuseBlock BlockSize seqId coherentId blockSize s.fifo with
  | (fifo, some front) => ({ s with fifo := fifo ++ [front] }, front)
  | (fifo, none) =>
    let a : Allocation := ⟨0, blockSize, seqId, 0, ⟨s.nextBlock, blockSize⟩⟩
    (⟨fifo ++ [a], s.nextBlock + 1⟩, a)

/-- `allocate`. -/
def allocate (s : RingBumpState) (seqId coherentId size alignment : Nat) :
    RingBumpState × Block × Nat :=
  let slow :=
    let (s, a) := allocateOrReuseBlock BlockSize s seqId coherentId (max size BlockSize)
    s.suballocate a size alignment
  match s.fifo.getLast? with
  | none => slow
  | some latest =>
    if latest.totalSize < align latest.allocatedSize alignment + size then slow
    else s.suballocate { latest with lastUsedSeqId := seqId } size alignment

/-- The `while` loop of `free_blocks`. -/
def freeLoop (coherentId : Nat) : List Allocation → List Allocation
  | [] => []
  | front :: fifo =>
    if coherentId < front.lastUsedSeqId then front :: fifo
    else
      let expired := decide (kStagingBlockLifetime < coherentId - front.lastUsedSeqId) ||
        decide (kStagingBlockLifetime < front.incTimeToLive) || decide (coherentId = 2 ^ 64 - 1)
      let adhoc := decide (front.totalSize ≠ BlockSize)
      if expired || adhoc then freeLoop coherentId fifo
      else { front with incTimeToLive := front.incTimeToLive + 1 } :: fifo

/-- `free_blocks`. -/
def freeBlocks (s : RingBumpState) (coherentId : Nat) : RingBumpState :=
  { s with fifo := freeLoop BlockSize coherentId s.fifo }

end RingBumpState

/-! ## Runs -/

/-- A call on the allocator. -/
inductive RingCall where
  | allocate (seqId coherentId size alignment : Nat)
  | freeBlocks (coherentId : Nat)

/-- What an `allocate` call returned, and what it was for. -/
structure Grant where
  seqId : Nat
  block : Block
  offset : Nat
  size : Nat
  alignment : Nat

/-- A state with the grants so far, newest first, and the ids of the last calls. -/
structure RingTrace where
  state : RingBumpState
  grants : List Grant
  seqId : Nat
  coherentId : Nat

namespace RingTrace

/-- Nothing is granted yet. -/
def init : RingTrace := ⟨⟨[], 0⟩, [], 0, 0⟩

/-- One call. -/
def step (BlockSize : Nat) (s : RingTrace) : RingCall → RingTrace
  | .allocate seqId coherentId size alignment =>
    let (state, block, offset) := s.state.allocate BlockSize seqId coherentId size alignment
    ⟨state, ⟨seqId, block, offset, size, alignment⟩ :: s.grants, seqId, coherentId⟩
  | .freeBlocks coherentId =>
    ⟨s.state.freeBlocks BlockSize coherentId, s.grants, s.seqId, coherentId⟩

/-- The call keeps the ids in order, and aligns to a power of two. -/
def Allows (s : RingTrace) : RingCall → Prop
  | .allocate seqId coherentId _ alignment =>
    s.seqId ≤ seqId ∧ s.coherentId ≤ coherentId ∧ coherentId < seqId ∧ ∃ k, alignment = 2 ^ k
  | .freeBlocks coherentId => s.coherentId ≤ coherentId

/-- The traces of sequences of such calls. -/
inductive Reachable (BlockSize : Nat) : RingTrace → Prop
  | init : Reachable BlockSize init
  | step (s : RingTrace) (c : RingCall) (h : Reachable BlockSize s) (hc : s.Allows c) :
      Reachable BlockSize (s.step BlockSize c)

end RingTrace

/-! ## The invariant -/

/-- The parts of two grants do not overlap. -/
def Grant.Apart (h g : Grant) : Prop :=
  h.offset + h.size ≤ g.offset ∨ g.offset + g.size ≤ h.offset

/-- The grant lies in the filled part of the allocation, which was used for its chunk or later. -/
structure Grant.In (g : Grant) (a : Allocation) : Prop where
  block : a.block = g.block
  filled : g.offset + g.size ≤ a.allocatedSize
  used : g.seqId ≤ a.lastUsedSeqId

/-- A queue, when the chunks up to `coherentId` are coherent: every other grant is in one of its
allocations, which have blocks of their own. -/
structure FifoInv (fifo : List Allocation) (nextBlock : Nat) (grants : List Grant)
    (coherentId : Nat) : Prop where
  total : ∀ a ∈ fifo, a.totalSize = a.block.size
  fresh : ∀ a ∈ fifo, a.block.id < nextBlock
  nodup : (fifo.map (·.block.id)).Nodup
  live : ∀ g ∈ grants, coherentId < g.seqId → ∃ a ∈ fifo, g.In a

/-- The grants so far. -/
structure GrantsInv (grants : List Grant) (nextBlock seqId coherentId : Nat) : Prop where
  inside : ∀ g ∈ grants, g.offset + g.size ≤ g.block.size ∧ g.alignment ∣ g.offset
  known : ∀ g ∈ grants, g.block.id < nextBlock
  seq : ∀ g ∈ grants, g.seqId ≤ seqId
  apart : grants.Pairwise fun h g => h.block.id = g.block.id → coherentId < g.seqId → h.Apart g

section Fifo

variable {fifo dropped kept : List Allocation} {nextBlock coherentId : Nat} {grants : List Grant}

/-- The part of an allocation that the invariant looks at. -/
def Allocation.core (a : Allocation) : Allocation := { a with incTimeToLive := 0 }

theorem Allocation.core_inj {a b : Allocation} (h : b.core = a.core) :
    b.block = a.block ∧ b.totalSize = a.totalSize ∧ b.allocatedSize = a.allocatedSize ∧
      b.lastUsedSeqId = a.lastUsedSeqId := by
  simp only [core, mk.injEq] at h
  exact ⟨h.2.2.2.2, h.2.1, h.1, h.2.2.1⟩

/-- Dropping allocations whose last chunk is coherent keeps the invariant. -/
theorem FifoInv.drop (h : FifoInv fifo nextBlock grants coherentId) {coherentId' : Nat}
    (hle : coherentId ≤ coherentId')
    (hf : fifo.map Allocation.core = dropped ++ kept.map Allocation.core)
    (hd : ∀ a ∈ dropped, a.lastUsedSeqId ≤ coherentId') :
    FifoInv kept nextBlock grants coherentId' := by
  have hkept : ∀ a ∈ kept, ∃ b ∈ fifo, b.core = a.core := by
    intro a ha
    have hmem : a.core ∈ fifo.map Allocation.core :=
      hf ▸ List.mem_append_right _ (List.mem_map_of_mem ha)
    exact List.mem_map.mp hmem
  have hids : ∀ l : List Allocation, l.map (·.block.id) =
      (l.map Allocation.core).map (·.block.id) := by
    intro l
    rw [List.map_map]
    rfl
  refine ⟨fun a ha => ?_, fun a ha => ?_, ?_, fun g hg hlive => ?_⟩
  · obtain ⟨b, hb, hcore⟩ := hkept a ha
    obtain ⟨hblock, htotal, -, -⟩ := Allocation.core_inj hcore
    rw [← hblock, ← htotal]
    exact h.total b hb
  · obtain ⟨b, hb, hcore⟩ := hkept a ha
    rw [← (Allocation.core_inj hcore).1]
    exact h.fresh b hb
  · have hnd := h.nodup
    rw [hids, hf, List.map_append, List.nodup_append] at hnd
    rw [hids]
    exact hnd.2.1
  · obtain ⟨a, ha, hin⟩ := h.live g hg (Nat.lt_of_le_of_lt hle hlive)
    have hmem : a.core ∈ dropped ++ kept.map Allocation.core := hf ▸ List.mem_map_of_mem ha
    rcases List.mem_append.mp hmem with hmem | hmem
    · have hused : a.core.lastUsedSeqId ≤ coherentId' := hd _ hmem
      have hcore : a.core.lastUsedSeqId = a.lastUsedSeqId := rfl
      have := hin.used
      omega
    · obtain ⟨b, hb, hcore⟩ := List.mem_map.mp hmem
      obtain ⟨hblock, -, halloc, hused⟩ := Allocation.core_inj hcore
      exact ⟨b, hb, hblock.trans hin.block, halloc ▸ hin.filled, hused ▸ hin.used⟩

/-- `free_blocks` drops coherent allocations from the front. -/
theorem freeLoop_spec (BlockSize coherentId : Nat) : ∀ fifo : List Allocation,
    ∃ dropped : List Allocation, fifo.map Allocation.core =
      dropped ++ (RingBumpState.freeLoop BlockSize coherentId fifo).map Allocation.core ∧
      ∀ a ∈ dropped, a.lastUsedSeqId ≤ coherentId
  | [] => ⟨[], rfl, fun a ha => absurd ha List.not_mem_nil⟩
  | front :: fifo => by
    unfold RingBumpState.freeLoop
    split
    · exact ⟨[], rfl, fun a ha => absurd ha List.not_mem_nil⟩
    · next hle =>
      dsimp only
      split
      · obtain ⟨dropped, hf, hd⟩ := freeLoop_spec BlockSize coherentId fifo
        refine ⟨front.core :: dropped, congrArg (front.core :: ·) hf, fun a ha => ?_⟩
        rcases List.mem_cons.mp ha with rfl | ha
        · exact Nat.le_of_not_lt hle
        · exact hd a ha
      · exact ⟨[], rfl, fun a ha => absurd ha List.not_mem_nil⟩

/-- `allocate_or_reuse_block` drops allocations whose last chunk is coherent, and rewinds one of
those at most. -/
theorem reuseBlock_spec (BlockSize seqId coherentId blockSize : Nat) : ∀ fifo : List Allocation,
    ∃ dropped : List Allocation, (∀ a ∈ dropped, a.lastUsedSeqId < coherentId) ∧
      match RingBumpState.reuseBlock BlockSize seqId coherentId blockSize fifo with
      | (kept, none) => fifo = dropped ++ kept
      | (kept, some front') => ∃ front, fifo = dropped ++ front :: kept ∧
          front.lastUsedSeqId < coherentId ∧ blockSize ≤ front.totalSize ∧
          front' = ⟨0, front.totalSize, seqId, 0, front.block⟩
  | [] => ⟨[], fun a ha => absurd ha List.not_mem_nil, rfl⟩
  | front :: fifo => by
    unfold RingBumpState.reuseBlock
    by_cases h1 : front.lastUsedSeqId < coherentId
    · by_cases h2 : front.totalSize ≠ BlockSize
      · rw [if_pos h1, if_pos h2]
        obtain ⟨dropped, hd, hf⟩ := reuseBlock_spec BlockSize seqId coherentId blockSize fifo
        refine ⟨front :: dropped, fun a ha => ?_, ?_⟩
        · rcases List.mem_cons.mp ha with rfl | ha
          · exact h1
          · exact hd a ha
        · split <;> rename_i heq <;> rw [heq] at hf
          · exact congrArg (front :: ·) hf
          · obtain ⟨f, hf, hrest⟩ := hf
            exact ⟨f, congrArg (front :: ·) hf, hrest⟩
      · by_cases h3 : blockSize ≤ front.totalSize
        · rw [if_pos h1, if_neg h2, if_pos h3]
          exact ⟨[], fun a ha => absurd ha List.not_mem_nil, front, rfl, h1, h3, rfl⟩
        · rw [if_pos h1, if_neg h2, if_neg h3]
          exact ⟨[], fun a ha => absurd ha List.not_mem_nil, rfl⟩
    · rw [if_neg h1]
      exact ⟨[], fun a ha => absurd ha List.not_mem_nil, rfl⟩

/-- The queue is ready for `suballocate`: the allocation at the back is used for `seqId`, and a
grant of it that is not coherent lies in the part that is filled. -/
theorem FifoInv.suballocate {a : Allocation} {g : Grant}
    (h : FifoInv (kept ++ [a]) nextBlock grants coherentId) (hblock : g.block = a.block)
    (hused : a.lastUsedSeqId = g.seqId) (hoff : a.allocatedSize ≤ g.offset) :
    FifoInv (kept ++ [{ a with allocatedSize := g.offset + g.size }]) nextBlock (g :: grants)
      coherentId ∧
    ∀ g' ∈ grants, g.block.id = g'.block.id → coherentId < g'.seqId → g.Apart g' := by
  have hmem : a ∈ kept ++ [a] := List.mem_append_right _ (List.mem_singleton.mpr rfl)
  have hlast : ∀ {Q : Allocation → Prop}, (∀ b ∈ kept ++ [a], Q b) →
      Q { a with allocatedSize := g.offset + g.size } →
      ∀ b ∈ kept ++ [{ a with allocatedSize := g.offset + g.size }], Q b := by
    intro Q hQ ha b hb
    rcases List.mem_append.mp hb with hb | hb
    · exact hQ b (List.mem_append_left _ hb)
    · rw [List.mem_singleton.mp hb]
      exact ha
  refine ⟨⟨hlast h.total (h.total a hmem), hlast h.fresh (h.fresh a hmem), ?_, fun g' hg' hlive =>
    ?_⟩,
    fun g' hg' hid hlive => ?_⟩
  · have := h.nodup
    rw [List.map_append] at this ⊢
    exact this
  · rcases List.mem_cons.mp hg' with rfl | hg'
    · exact ⟨_, List.mem_append_right _ (List.mem_singleton.mpr rfl), hblock.symm, Nat.le_refl _,
        hused.ge⟩
    · obtain ⟨b, hb, hin⟩ := h.live g' hg' hlive
      rcases List.mem_append.mp hb with hb | hb
      · exact ⟨b, List.mem_append_left _ hb, hin⟩
      · obtain rfl := List.mem_singleton.mp hb
        refine ⟨_, List.mem_append_right _ (List.mem_singleton.mpr rfl), hin.block, ?_, hin.used⟩
        exact hin.filled.trans (hoff.trans (Nat.le_add_right _ _))
  · obtain ⟨b, hb, hin⟩ := h.live g' hg' hlive
    right
    rcases List.mem_append.mp hb with hb | hb
    · -- the blocks of the queue are distinct
      have hnd := h.nodup
      rw [List.map_append, List.nodup_append] at hnd
      refine absurd ?_ (hnd.2.2 _ (List.mem_map_of_mem hb) a.block.id (List.mem_singleton.mpr rfl))
      rw [hin.block, ← hid, hblock]
    · rw [List.mem_singleton.mp hb] at hin
      exact hin.filled.trans hoff

/-- The allocation to fill, at the back of the queue. -/
structure Ready (kept : List Allocation) (a : Allocation) (nextBlock : Nat) (grants : List Grant)
    (coherentId seqId size alignment : Nat) : Prop where
  inv : FifoInv (kept ++ [a]) nextBlock grants coherentId
  used : a.lastUsedSeqId = seqId
  fits : align a.allocatedSize alignment + size ≤ a.totalSize

variable {coherentId' seqId size k : Nat}

/-- The newest allocation has room. -/
theorem Ready.latest {latest : Allocation}
    (h : FifoInv (kept ++ [latest]) nextBlock grants coherentId) (hle : coherentId ≤ coherentId')
    (hseq : ∀ g ∈ grants, g.seqId ≤ seqId)
    (hfits : align latest.allocatedSize (2 ^ k) + size ≤ latest.totalSize) :
    Ready kept { latest with lastUsedSeqId := seqId } nextBlock grants coherentId' seqId size
      (2 ^ k) := by
  have hmem : latest ∈ kept ++ [latest] := List.mem_append_right _ (List.mem_singleton.mpr rfl)
  refine ⟨⟨fun a ha => ?_, fun a ha => ?_, ?_, fun g hg hlive => ?_⟩, rfl, hfits⟩
  · rcases List.mem_append.mp ha with ha | ha
    · exact h.total a (List.mem_append_left _ ha)
    · rw [List.mem_singleton.mp ha]
      exact h.total latest hmem
  · rcases List.mem_append.mp ha with ha | ha
    · exact h.fresh a (List.mem_append_left _ ha)
    · rw [List.mem_singleton.mp ha]
      exact h.fresh latest hmem
  · have := h.nodup
    rw [List.map_append] at this ⊢
    exact this
  · obtain ⟨a, ha, hin⟩ := h.live g hg (Nat.lt_of_le_of_lt hle hlive)
    rcases List.mem_append.mp ha with ha | ha
    · exact ⟨a, List.mem_append_left _ ha, hin⟩
    · obtain rfl := List.mem_singleton.mp ha
      exact ⟨_, List.mem_append_right _ (List.mem_singleton.mpr rfl), hin.block, hin.filled,
          hseq g hg⟩

/-- The oldest allocation is rewound: nothing in it is in use. -/
theorem Ready.rewind {front : Allocation}
    (h : FifoInv (dropped ++ front :: kept) nextBlock grants coherentId)
    (hle : coherentId ≤ coherentId') (hd : ∀ a ∈ dropped, a.lastUsedSeqId < coherentId')
    (hf : front.lastUsedSeqId < coherentId') (hsize : size ≤ front.totalSize) :
    Ready kept ⟨0, front.totalSize, seqId, 0, front.block⟩ nextBlock grants coherentId' seqId size
      (2 ^ k) := by
  have hkept : ∀ a ∈ kept, a ∈ dropped ++ front :: kept := fun a ha =>
    List.mem_append_right _ (List.mem_cons_of_mem _ ha)
  have hfront : front ∈ dropped ++ front :: kept :=
    List.mem_append_right _ (List.mem_cons_self ..)
  refine ⟨⟨fun a ha => ?_, fun a ha => ?_, ?_, fun g hg hlive => ?_⟩, rfl, ?_⟩
  · rcases List.mem_append.mp ha with ha | ha
    · exact h.total a (hkept a ha)
    · rw [List.mem_singleton.mp ha]
      exact h.total front hfront
  · rcases List.mem_append.mp ha with ha | ha
    · exact h.fresh a (hkept a ha)
    · rw [List.mem_singleton.mp ha]
      exact h.fresh front hfront
  · have hnd := h.nodup
    rw [List.map_append, List.nodup_append, List.map_cons] at hnd
    obtain ⟨hnot, hnd⟩ := List.nodup_cons.mp hnd.2.1
    rw [List.map_append, List.nodup_append]
    refine ⟨hnd, List.nodup_singleton _, fun x hx y hy hxy => hnot ?_⟩
    rw [List.mem_singleton.mp hy] at hxy
    have hfront' : x = front.block.id := hxy
    exact hfront' ▸ hx
  · obtain ⟨a, ha, hin⟩ := h.live g hg (Nat.lt_of_le_of_lt hle hlive)
    have hused := hin.used
    rcases List.mem_append.mp ha with ha | ha
    · have := hd a ha
      omega
    · rcases List.mem_cons.mp ha with rfl | ha
      · omega
      · exact ⟨a, List.mem_append_left _ ha, hin⟩
  · show align 0 (2 ^ k) + size ≤ front.totalSize
    rw [align_zero, Nat.zero_add]
    exact hsize

/-- A new block is pushed. -/
theorem Ready.push {blockSize : Nat} (h : FifoInv (dropped ++ kept) nextBlock grants coherentId)
    (hle : coherentId ≤ coherentId') (hd : ∀ a ∈ dropped, a.lastUsedSeqId < coherentId')
    (hsize : size ≤ blockSize) :
    Ready kept ⟨0, blockSize, seqId, 0, ⟨nextBlock, blockSize⟩⟩ (nextBlock + 1) grants coherentId'
      seqId size (2 ^ k) := by
  refine ⟨⟨fun a ha => ?_, fun a ha => ?_, ?_, fun g hg hlive => ?_⟩, rfl, ?_⟩
  · rcases List.mem_append.mp ha with ha | ha
    · exact h.total a (List.mem_append_right _ ha)
    · rw [List.mem_singleton.mp ha]
  · rcases List.mem_append.mp ha with ha | ha
    · exact Nat.lt_succ_of_lt (h.fresh a (List.mem_append_right _ ha))
    · rw [List.mem_singleton.mp ha]
      exact Nat.lt_succ_self _
  · have hnd := h.nodup
    rw [List.map_append, List.nodup_append] at hnd
    rw [List.map_append, List.nodup_append]
    refine ⟨hnd.2.1, List.nodup_singleton _, fun x hx y hy hxy => ?_⟩
    obtain ⟨a, ha, rfl⟩ := List.mem_map.mp hx
    rw [List.mem_singleton.mp hy] at hxy
    exact absurd hxy (Nat.ne_of_lt (h.fresh a (List.mem_append_right _ ha)))
  · obtain ⟨a, ha, hin⟩ := h.live g hg (Nat.lt_of_le_of_lt hle hlive)
    have hused := hin.used
    rcases List.mem_append.mp ha with ha | ha
    · have := hd a ha
      omega
    · exact ⟨a, List.mem_append_left _ ha, hin⟩
  · show align 0 (2 ^ k) + size ≤ blockSize
    rw [align_zero, Nat.zero_add]
    exact hsize

/-- **`allocate`** fills an allocation that is ready. -/
theorem allocate_spec (BlockSize : Nat) {s : RingBumpState}
    (h : FifoInv s.fifo s.nextBlock grants coherentId) (hle : coherentId ≤ coherentId')
    (hseq : ∀ g ∈ grants, g.seqId ≤ seqId) (size k : Nat) :
    ∃ kept a nb, Ready kept a nb grants coherentId' seqId size (2 ^ k) ∧ s.nextBlock ≤ nb ∧
      s.allocate BlockSize seqId coherentId' size (2 ^ k) =
        (⟨kept ++ [{ a with allocatedSize := align a.allocatedSize (2 ^ k) + size }], nb⟩, a.block,
          align a.allocatedSize (2 ^ k)) := by
  have hslow : ∃ kept a nb, Ready kept a nb grants coherentId' seqId size (2 ^ k) ∧
      s.nextBlock ≤ nb ∧
      s.allocateOrReuseBlock BlockSize seqId coherentId' (max size BlockSize) =
        (⟨kept ++ [a], nb⟩, a) := by
    obtain ⟨dropped, hd, hspec⟩ :=
      reuseBlock_spec BlockSize seqId coherentId' (max size BlockSize) s.fifo
    unfold RingBumpState.allocateOrReuseBlock
    split at hspec <;> rename_i heq <;> rw [heq]
    · rw [hspec] at h
      exact ⟨_, _, _, Ready.push h hle hd (Nat.le_max_left _ _), Nat.le_succ _, rfl⟩
    · obtain ⟨front, hf, hlt, hsize, rfl⟩ := hspec
      rw [hf] at h
      exact ⟨_, _, _, Ready.rewind h hle hd hlt ((Nat.le_max_left _ _).trans hsize),
          Nat.le_refl _, rfl⟩
  obtain ⟨kept, a, nb, hready, hnb, heq⟩ := hslow
  have hslow' : (RingBumpState.mk (kept ++ [a]) nb).suballocate a size (2 ^ k) =
      (⟨kept ++ [{ a with allocatedSize := align a.allocatedSize (2 ^ k) + size }], nb⟩, a.block,
        align a.allocatedSize (2 ^ k)) := by
    rw [RingBumpState.suballocate]
    simp only [List.dropLast_concat]
  unfold RingBumpState.allocate
  rw [heq]
  cases hlast : s.fifo.getLast? with
  | none => exact ⟨kept, a, nb, hready, hnb, hslow'⟩
  | some latest =>
    dsimp only
    split
    · exact ⟨kept, a, nb, hready, hnb, hslow'⟩
    · next hfits =>
      have hfifo : s.fifo = s.fifo.dropLast ++ [latest] := by
        obtain ⟨ys, hys⟩ := List.getLast?_eq_some_iff.mp hlast
        rw [hys, List.dropLast_concat]
      rw [hfifo] at h
      exact ⟨_, _, _, Ready.latest h hle hseq (Nat.le_of_not_lt hfits), Nat.le_refl _, rfl⟩

end Fifo

/-! ## The run -/

/-- The invariant of a trace. -/
structure RingInv (s : RingTrace) : Prop where
  fifo : FifoInv s.state.fifo s.state.nextBlock s.grants s.coherentId
  grants : GrantsInv s.grants s.state.nextBlock s.seqId s.coherentId

variable {BlockSize : Nat} {s : RingTrace}

theorem RingInv.allocate (h : RingInv s) {seqId coherentId : Nat} (size k : Nat)
    (hseq : s.seqId ≤ seqId) (hcoh : s.coherentId ≤ coherentId) :
    RingInv (s.step BlockSize (.allocate seqId coherentId size (2 ^ k))) := by
  obtain ⟨hf, hg⟩ := h
  obtain ⟨kept, a, nb, hready, hnb, heq⟩ := allocate_spec BlockSize hf hcoh
    (fun g hg' => (hg.seq g hg').trans hseq) size k
  simp only [RingTrace.step, heq]
  have hmem : a ∈ kept ++ [a] := List.mem_append_right _ (List.mem_singleton.mpr rfl)
  obtain ⟨hfifo, hapart⟩ := FifoInv.suballocate
    (g := ⟨seqId, a.block, align a.allocatedSize (2 ^ k), size, 2 ^ k⟩) hready.inv rfl hready.used
    (le_align _ _)
  refine ⟨hfifo, ⟨fun g hg' => ?_, fun g hg' => ?_, fun g hg' => ?_, ?_⟩⟩
  · rcases List.mem_cons.mp hg' with rfl | hg'
    · exact ⟨hready.inv.total a hmem ▸ hready.fits, dvd_align _ _⟩
    · exact hg.inside g hg'
  · rcases List.mem_cons.mp hg' with rfl | hg'
    · exact hready.inv.fresh a hmem
    · exact Nat.lt_of_lt_of_le (hg.known g hg') hnb
  · rcases List.mem_cons.mp hg' with rfl | hg'
    · exact Nat.le_refl _
    · exact (hg.seq g hg').trans hseq
  · refine List.pairwise_cons.mpr ⟨hapart, hg.apart.imp fun hp hid hlive => hp hid ?_⟩
    exact Nat.lt_of_le_of_lt hcoh hlive

theorem RingInv.freeBlocks (h : RingInv s) {coherentId : Nat} (hcoh : s.coherentId ≤ coherentId) :
    RingInv (s.step BlockSize (.freeBlocks coherentId)) := by
  obtain ⟨dropped, hf, hd⟩ := freeLoop_spec BlockSize coherentId s.state.fifo
  refine ⟨h.fifo.drop hcoh hf hd, ⟨h.grants.inside, h.grants.known, h.grants.seq, ?_⟩⟩
  exact h.grants.apart.imp fun hp hid hlive => hp hid (Nat.lt_of_le_of_lt hcoh hlive)

theorem ringInv_reachable (h : RingTrace.Reachable BlockSize s) : RingInv s := by
  induction h with
  | init =>
    exact ⟨⟨fun a ha => absurd ha List.not_mem_nil, fun a ha => absurd ha List.not_mem_nil,
      List.nodup_nil, fun g hg => absurd hg List.not_mem_nil⟩,
      ⟨fun g hg => absurd hg List.not_mem_nil, fun g hg => absurd hg List.not_mem_nil,
      fun g hg => absurd hg List.not_mem_nil, List.Pairwise.nil⟩⟩
  | step s c _ hc ih =>
    cases c with
    | allocate seqId coherentId size alignment =>
      obtain ⟨hseq, hcoh, -, k, rfl⟩ := hc
      exact ih.allocate size k hseq hcoh
    | freeBlocks coherentId => exact ih.freeBlocks hc

/-- **No memory in use is handed out.** In every run, for every block size: a grant lies inside its
block and is aligned; until its chunk is coherent its block is in the queue, and no later grant of
the same block overlaps it. -/
theorem grants_safe (BlockSize : Nat) (s : RingTrace) (h : s.Reachable BlockSize) :
    (∀ g ∈ s.grants, g.offset + g.size ≤ g.block.size ∧ g.alignment ∣ g.offset) ∧
    (∀ g ∈ s.grants, s.coherentId < g.seqId → ∃ a ∈ s.state.fifo, a.block = g.block) ∧
    s.grants.Pairwise fun later g =>
      s.coherentId < g.seqId → later.block = g.block → later.Apart g := by
  have hinv := ringInv_reachable h
  refine ⟨hinv.grants.inside, fun g hg hlive => ?_, hinv.grants.apart.imp ?_⟩
  · obtain ⟨a, ha, hin⟩ := hinv.fifo.live g hg hlive
    exact ⟨a, ha, hin.block⟩
  · intro later g hp hlive hblock
    exact hp (congrArg Block.id hblock) hlive

/-- An oversized block, a block that is full, and its reuse once its chunk is coherent. -/
theorem grants_safe_reuse : ∃ s : RingTrace, s.Reachable 16 ∧ s.grants.length = 4 ∧
    ((∀ g ∈ s.grants, g.offset + g.size ≤ g.block.size ∧ g.alignment ∣ g.offset) ∧
    (∀ g ∈ s.grants, s.coherentId < g.seqId → ∃ a ∈ s.state.fifo, a.block = g.block) ∧
    s.grants.Pairwise fun later g =>
      s.coherentId < g.seqId → later.block = g.block → later.Apart g) := by
  have h := @RingTrace.Reachable.init 16
  have h := h.step _ (.allocate 1 0 10 4) ⟨by decide, by decide, by decide, 2, rfl⟩
  have h := h.step _ (.allocate 1 0 40 8) ⟨by decide, by decide, by decide, 3, rfl⟩
  have h := h.step _ (.allocate 2 1 12 4) ⟨by decide, by decide, by decide, 2, rfl⟩
  have h := h.step _ (.freeBlocks 1) (Nat.le_refl 1)
  have h := h.step _ (.allocate 3 2 16 1) ⟨by decide, by decide, by decide, 0, rfl⟩
  exact ⟨_, h, rfl, grants_safe 16 _ h⟩

end Dxmt
