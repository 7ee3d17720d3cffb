import Dxmt.FenceSet

/-!
# The access tracker of a resource: `GenericAccessTracker`

A `GenericAccessTracker` knows the last writer of a resource (`exclusive`), the readers since
(`shared`, a ring of 64 ids) and three flags about the current encoder. Its six entry points fill
in two things: the fences the encoder has to wait on, and the barriers it needs inside itself.

`EncoderId` is a `uint64_t` that never wraps, so the differences of ids below are `Nat` ones; every
subtraction of the source has its larger side first. The `assert`s of the source are left out.

Results: `Ring` says which list of readers a tracking set stands for, newest first. `ring_add`,
`ring_clear`, `isLastAccess_iff` and `mem_enumerate` are the four operations on it.

Source: `dxmt_deptrack.hpp:201-290`, `dxmt_deptrack.cpp:6-238`.
-/

namespace Dxmt

/-- `TrackingSet<>` with `Sz = kLane`. Entries that were never written hold garbage. -/
structure TrackingSet where
  storage : Nat → Nat
  cursor : Nat

namespace TrackingSet

/-- `clear`: only the newest entry is overwritten. -/
def clear (t : TrackingSet) : TrackingSet :=
  { t with storage := Function.update t.storage t.cursor 0 }

/-- `TrackingSet()` over uninitialised storage. -/
def init (garbage : Nat → Nat) : TrackingSet := clear ⟨garbage, 0⟩

/-- `add`. -/
def add (t : TrackingSet) (id : Nat) : Bool × TrackingSet :=
  if t.storage t.cursor = id then (false, t)
  else
    let cursor := (t.cursor + 1) % kLane
    (true, ⟨Function.update t.storage cursor id, cursor⟩)

/-- `isLastAccess`. -/
def isLastAccess (t : TrackingSet) (id : Nat) : Bool := t.storage t.cursor == id

/-- Entry `i` counted back from the cursor. -/
def entry (t : TrackingSet) (i : Nat) : Nat := t.storage ((t.cursor + kLane - i) % kLane)

/-- The `for` loop of `enumerate`, from `i` on with `fuel` iterations left. -/
def enumerateLoop {σ : Type} (t : TrackingSet) (idBefore : Nat) (fn : Nat → σ → σ) :
    (fuel i count : Nat) → σ → Nat × σ
  | 0, _, count, s => (count, s)
  | fuel + 1, i, count, s =>
    let c := t.entry i
    if idBefore ≤ c then enumerateLoop t idBefore fn fuel (i + 1) count s
    else if idBefore - kLane < c then enumerateLoop t idBefore fn fuel (i + 1) (count + 1) (fn c s)
    else (count, s)

/-- `enumerate`: the number of calls of `fn`, and their effect. -/
def enumerate {σ : Type} (t : TrackingSet) (idBefore : Nat) (fn : Nat → σ → σ) (s : σ) : Nat × σ :=
  enumerateLoop t idBefore fn kLane 0 0 s

end TrackingSet

/-- `kBarrierTypeRW`. -/
def kBarrierTypeRW : BitVec 2 := 1 <<< 0

/-- `kBarrierTypeWaW`. -/
def kBarrierTypeWaW : BitVec 2 := 1 <<< 1

/-- `1 << uav`: a write after a write needs `kBarrierTypeWaW` if it is a UAV write. -/
def barrierTypeOfWrite (uav : Bool) : BitVec 2 := 1 <<< uav.toNat

/-- `EncoderBarrierState`. -/
structure EncoderBarrierState where
  barrierSet : BitVec 2
  barrierPreRasterSet : BitVec 2
  barrierFragmentAfterPreRasterSet : BitVec 2
  barrierPreRasterAfterFragmentSet : BitVec 2
deriving DecidableEq

/-- `GenericAccessTracker`. -/
structure GenericAccessTracker where
  shared : TrackingSet
  exclusive : Nat
  isShared : Bool
  isSharedPreRaster : Bool
  lastWriteFromPreRaster : Bool

/-- The tracker, and the two out parameters of its entry points. -/
structure AccessState where
  tracker : GenericAccessTracker
  waitFences : FenceSet
  barrierState : EncoderBarrierState

namespace EncoderBarrierState

/-- No barrier is pending. -/
def init : EncoderBarrierState := ⟨0, 0, 0, 0⟩

/-- `barrierSet |= b`. -/
def orSet (s : EncoderBarrierState) (b : BitVec 2) : EncoderBarrierState :=
  { s with barrierSet := s.barrierSet ||| b }

/-- `barrierPreRasterSet |= b`. -/
def orPreRaster (s : EncoderBarrierState) (b : BitVec 2) : EncoderBarrierState :=
  { s with barrierPreRasterSet := s.barrierPreRasterSet ||| b }

/-- `barrierFragmentAfterPreRasterSet |= b`. -/
def orFragmentAfterPreRaster (s : EncoderBarrierState) (b : BitVec 2) : EncoderBarrierState :=
  { s with barrierFragmentAfterPreRasterSet := s.barrierFragmentAfterPreRasterSet ||| b }

/-- `barrierPreRasterAfterFragmentSet |= b`. -/
def orPreRasterAfterFragment (s : EncoderBarrierState) (b : BitVec 2) : EncoderBarrierState :=
  { s with barrierPreRasterAfterFragmentSet := s.barrierPreRasterAfterFragmentSet ||| b }

end EncoderBarrierState

namespace GenericAccessTracker

/-- `GenericAccessTracker()` over uninitialised ring storage. -/
def init (garbage : Nat → Nat) : GenericAccessTracker :=
  ⟨TrackingSet.init garbage, 0, false, false, false⟩

/-- `if (id - exclusive_ < kLane) wait_fences.set(exclusive_)`. -/
def waitExclusive (exclusive id : Nat) (wait : FenceSet) : FenceSet :=
  if id - exclusive < kLane then wait.set exclusive else wait

/-- `shared_.enumerate(id, [&](EncoderId id) { wait_fences.set(id); })`. -/
def waitShared (shared : TrackingSet) (id : Nat) (wait : FenceSet) : FenceSet :=
  (shared.enumerate id (fun id wait => wait.set id) wait).2

/-- `accessShared`. -/
def accessShared (id : Nat) (s : AccessState) : AccessState :=
  let t := s.tracker
  if t.exclusive = id then
    if t.isShared then s
    else
      { s with
        tracker := { t with isShared := true }
        barrierState := s.barrierState.orSet kBarrierTypeRW }
  else if t.shared.isLastAccess id then s
  else
    { s with
      tracker := { t with shared := (t.shared.add id).2 }
      waitFences := waitExclusive t.exclusive id s.waitFences }

/-- `accessExclusive`. -/
def accessExclusive (id : Nat) (uav : Bool) (s : AccessState) : AccessState :=
  -- the reader flag is reset before it is looked at
  let t := { s.tracker with isShared := false }
  if t.exclusive = id then
    { s with tracker := t, barrierState := s.barrierState.orSet (barrierTypeOfWrite uav) }
  else
    { tracker := { t with shared := t.shared.clear, exclusive := id }
      waitFences := waitExclusive t.exclusive id (waitShared t.shared id s.waitFences)
      barrierState :=
        if t.shared.isLastAccess id then s.barrierState.orSet kBarrierTypeRW else s.barrierState }

/-- `accessSharedPreRaster`. -/
def accessSharedPreRaster (id : Nat) (s : AccessState) : AccessState :=
  let t := s.tracker
  if t.exclusive = id + 1 then
    if t.isSharedPreRaster then s
    else
      { s with
        tracker := { t with isSharedPreRaster := true }
        barrierState :=
          if t.lastWriteFromPreRaster then s.barrierState.orPreRaster kBarrierTypeRW
          else s.barrierState.orPreRasterAfterFragment kBarrierTypeRW }
  else if t.exclusive = id then
    if t.isSharedPreRaster then s
    else
      { s with
        tracker := { t with isSharedPreRaster := true }
        barrierState := s.barrierState.orPreRaster kBarrierTypeRW }
  else if t.shared.isLastAccess (id + 1) then
    if t.isSharedPreRaster then s
    else
      { s with
        tracker := { t with isSharedPreRaster := true }
        waitFences := waitExclusive t.exclusive id s.waitFences }
  else if t.shared.isLastAccess id then s
  else
    { s with
      tracker := { t with
        shared := (t.shared.add id).2, isSharedPreRaster := true, isShared := false }
      waitFences := waitExclusive t.exclusive id s.waitFences }

/-- The two `if`s that end each branch of `accessExclusivePreRaster`: the barriers after the
readers of either stage. -/
def barrierAfterReadersPreRaster (s : AccessState) : AccessState :=
  let t := s.tracker
  let b := s.barrierState
  let b := if t.isSharedPreRaster then b.orPreRaster kBarrierTypeRW else b
  let b := if t.isShared then b.orPreRasterAfterFragment kBarrierTypeRW else b
  { s with
    tracker := { t with isSharedPreRaster := false, isShared := false }
    barrierState := b }

/-- `wait_fences.set(last_exclusive)`, unless there is no last writer. -/
def waitLastExclusive (lastExclusive : Nat) (wait : FenceSet) : FenceSet :=
  if lastExclusive ≠ 0 then wait.set lastExclusive else wait

/-- `accessExclusivePreRaster`. -/
def accessExclusivePreRaster (id : Nat) (uav : Bool) (s : AccessState) : AccessState :=
  let t := { s.tracker with exclusive := id }
  let lastExclusive := s.tracker.exclusive
  if lastExclusive = id + 1 then
    let last := t.lastWriteFromPreRaster
    let t := { t with lastWriteFromPreRaster := true }
    if !t.isShared && !t.isSharedPreRaster then
      { s with
        tracker := t
        barrierState :=
          if last then s.barrierState.orPreRaster (barrierTypeOfWrite uav)
          else s.barrierState.orPreRasterAfterFragment (barrierTypeOfWrite uav) }
    else barrierAfterReadersPreRaster { s with tracker := t }
  else if lastExclusive = id then
    let b :=
      if !t.isShared && !t.isSharedPreRaster then
        s.barrierState.orPreRaster (barrierTypeOfWrite uav)
      else s.barrierState
    barrierAfterReadersPreRaster { s with tracker := t, barrierState := b }
  else
    let wait := waitLastExclusive lastExclusive (waitShared t.shared id s.waitFences)
    if t.shared.isLastAccess (id + 1) || t.shared.isLastAccess id then
      let s := barrierAfterReadersPreRaster { s with tracker := t, waitFences := wait }
      { s with tracker := { s.tracker with shared := t.shared.clear } }
    else
      { s with
        tracker := { t with
          shared := t.shared.clear, isShared := false, isSharedPreRaster := false }
        waitFences := wait }

/-- `accessSharedFragment`. -/
def accessSharedFragment (id : Nat) (s : AccessState) : AccessState :=
  let t := s.tracker
  if t.exclusive = id then
    if t.isShared then s
    else
      { s with
        tracker := { t with isShared := true }
        barrierState :=
          -- `IMPLICIT BARRIER`
          if t.isSharedPreRaster then s.barrierState
          else if t.lastWriteFromPreRaster then
            s.barrierState.orFragmentAfterPreRaster kBarrierTypeRW
          else s.barrierState.orSet kBarrierTypeRW }
  else if t.exclusive = id - 1 then
    if t.isShared then s
    else
      { s with
        tracker := { t with isShared := true }
        barrierState :=
          -- `IMPLICIT BARRIER`
          if t.isSharedPreRaster then s.barrierState
          else s.barrierState.orFragmentAfterPreRaster kBarrierTypeRW }
  else if t.shared.isLastAccess id then s
  else
    { s with
      tracker := { t with
        shared := (t.shared.add id).2
        isShared := true
        isSharedPreRaster :=
          if t.shared.isLastAccess (id - 1) then t.isSharedPreRaster else false }
      waitFences := waitExclusive t.exclusive id s.waitFences }

/-- The two `if`s that end each branch of `accessExclusiveFragment`. -/
def barrierAfterReadersFragment (s : AccessState) : AccessState :=
  let t := s.tracker
  let b := s.barrierState
  let b := if t.isSharedPreRaster then b.orFragmentAfterPreRaster kBarrierTypeRW else b
  let b := if t.isShared then b.orSet kBarrierTypeRW else b
  { s with
    tracker := { t with isSharedPreRaster := false, isShared := false }
    barrierState := b }

/-- `accessExclusiveFragment`. -/
def accessExclusiveFragment (id : Nat) (uav : Bool) (s : AccessState) : AccessState :=
  let last := s.tracker.lastWriteFromPreRaster
  let lastExclusive := s.tracker.exclusive
  let t := { s.tracker with exclusive := id, lastWriteFromPreRaster := false }
  if lastExclusive = id then
    if !t.isShared && !t.isSharedPreRaster then
      { s with
        tracker := t
        barrierState :=
          if last then s.barrierState.orFragmentAfterPreRaster (barrierTypeOfWrite uav)
          else s.barrierState.orSet (barrierTypeOfWrite uav) }
    else barrierAfterReadersFragment { s with tracker := t }
  else if lastExclusive = id - 1 then
    if !t.isShared && !t.isSharedPreRaster then
      { s with
        tracker := t
        barrierState := s.barrierState.orFragmentAfterPreRaster (barrierTypeOfWrite uav) }
    else barrierAfterReadersFragment { s with tracker := t }
  else
    let wait := waitLastExclusive lastExclusive (waitShared t.shared id s.waitFences)
    if t.shared.isLastAccess id || t.shared.isLastAccess (id - 1) then
      let s := barrierAfterReadersFragment { s with tracker := t, waitFences := wait }
      { s with tracker := { s.tracker with shared := t.shared.clear } }
    else
      { s with
        tracker := { t with
          shared := t.shared.clear, isShared := false, isSharedPreRaster := false }
        waitFences := wait }

end GenericAccessTracker

/-! ## `track` (`dxmt_context.hpp:964-1003`) -/

/-- The bits of `ResourceAccess` that `track` looks at. -/
structure ResourceAccess where
  write : Bool
  uav : Bool
deriving DecidableEq

/-- The two stages of a render encoder. -/
inductive RenderStage where
  | preRaster
  | fragment
deriving DecidableEq

/-- An access of a render encoder. -/
structure RenderAccess where
  stage : RenderStage
  flags : ResourceAccess
deriving DecidableEq

/-- A tracker, and what `track` fills in of the current encoder. Only a render encoder has a
`fenceWaitVertex`. -/
structure TrackState where
  tracker : GenericAccessTracker
  fenceWaitVertex : FenceSet
  fenceWait : FenceSet
  barrierState : EncoderBarrierState

namespace TrackState

/-- The encoder state at `startComputePass` and the like: nothing to wait for yet. -/
def start (tracker : GenericAccessTracker) : TrackState := ⟨tracker, ∅, ∅, .init⟩

/-- An entry point that fills in `fence_wait`. -/
def withFenceWait (access : AccessState → AccessState) (s : TrackState) : TrackState :=
  let r := access ⟨s.tracker, s.fenceWait, s.barrierState⟩
  { s with tracker := r.tracker, fenceWait := r.waitFences, barrierState := r.barrierState }

/-- An entry point that fills in `fence_wait_vertex`. -/
def withFenceWaitVertex (access : AccessState → AccessState) (s : TrackState) : TrackState :=
  let r := access ⟨s.tracker, s.fenceWaitVertex, s.barrierState⟩
  { s with tracker := r.tracker, fenceWaitVertex := r.waitFences, barrierState := r.barrierState }

/-- `track<PipelineStage::Compute>`, of the encoder `id`. -/
def trackCompute (id : Nat) (s : TrackState) (flags : ResourceAccess) : TrackState :=
  if flags.write then s.withFenceWait (GenericAccessTracker.accessExclusive id flags.uav)
  else s.withFenceWait (GenericAccessTracker.accessShared id)

/-- `track<stage>`, of the render encoder with ids `v` and `v + 1`: the primary template for the
pre-raster stages, and `track<PipelineStage::Pixel>`. -/
def trackRender (v : Nat) (s : TrackState) (a : RenderAccess) : TrackState :=
  match a.stage with
  | .preRaster =>
    if a.flags.write then
      s.withFenceWaitVertex (GenericAccessTracker.accessExclusivePreRaster v a.flags.uav)
    else s.withFenceWaitVertex (GenericAccessTracker.accessSharedPreRaster v)
  | .fragment =>
    if a.flags.write then
      s.withFenceWait (GenericAccessTracker.accessExclusiveFragment (v + 1) a.flags.uav)
    else s.withFenceWait (GenericAccessTracker.accessSharedFragment (v + 1))

end TrackState

/-! ## The ring of readers -/

namespace TrackingSet

/-- The set stands for the readers `L`, newest first: they are its newest entries, and a zero
follows them unless they fill the ring. -/
structure Ring (t : TrackingSet) (L : List Nat) : Prop where
  cursor_lt : t.cursor < 64
  entry_eq : ∀ i < 64, ∀ x, L[i]? = some x → t.entry i = x
  marker : L.length < 64 → t.entry L.length = 0

theorem entry_zero {t : TrackingSet} (h : t.cursor < 64) : t.entry 0 = t.storage t.cursor := by
  have : (t.cursor + kLane - 0) % kLane = t.cursor := by simp only [kLane_eq]; omega
  rw [entry, this]

theorem ring_clear {t : TrackingSet} (h : t.cursor < 64) : Ring t.clear [] where
  cursor_lt := h
  entry_eq i _ x hx := by simp at hx
  marker _ := by
    rw [List.length_nil, entry_zero (t := t.clear) h]
    exact Function.update_self _ _ _

theorem ring_init (garbage : Nat → Nat) : Ring (init garbage) [] := ring_clear (Nat.zero_lt_succ 63)

/-- For an id other than zero, `isLastAccess` asks for the newest reader. -/
theorem isLastAccess_iff {t : TrackingSet} {L : List Nat} (h : Ring t L) {id : Nat} (hid : id ≠ 0) :
    t.isLastAccess id = true ↔ L.head? = some id := by
  have he : t.isLastAccess id = true ↔ t.entry 0 = id := by
    rw [entry_zero h.cursor_lt]
    exact beq_iff_eq
  rw [he]
  cases L with
  | nil =>
    have h0 : t.entry 0 = 0 := h.marker (by simp)
    rw [h0]
    exact ⟨fun h0 => absurd h0.symm hid, fun h0 => by simp at h0⟩
  | cons x L =>
    rw [h.entry_eq 0 (by omega) x rfl]
    simp

/-- Adding a new id moves every entry one back. -/
theorem entry_add {t : TrackingSet} (h : t.cursor < 64) {id : Nat} (hid : t.storage t.cursor ≠ id) :
    (t.add id).2.cursor < 64 ∧ (t.add id).2.entry 0 = id ∧
      ∀ i, i < 63 → (t.add id).2.entry (i + 1) = t.entry i := by
  have hadd : (t.add id).2 = ⟨Function.update t.storage ((t.cursor + 1) % 64) id,
      (t.cursor + 1) % 64⟩ := by rw [add, if_neg hid]; rfl
  have hc : (t.add id).2.cursor < 64 := by
    rw [hadd]
    exact Nat.mod_lt _ (by omega)
  refine ⟨hc, ?_, fun i hi => ?_⟩
  · rw [entry_zero hc, hadd]
    exact Function.update_self _ _ _
  · have hpos : ((t.cursor + 1) % 64 + 64 - (i + 1)) % 64 = (t.cursor + 64 - i) % 64 := by omega
    rw [hadd]
    simp only [entry, kLane_eq, hpos]
    exact Function.update_of_ne (by omega) _ _

theorem ring_add {t : TrackingSet} {L : List Nat} (h : Ring t L) {id : Nat} (hid : id ≠ 0)
    (hnew : L.head? ≠ some id) : Ring (t.add id).2 (id :: L) := by
  have hne : t.storage t.cursor ≠ id := by
    intro he
    exact hnew ((isLastAccess_iff h hid).mp (beq_iff_eq.mpr he))
  obtain ⟨hc, h0, hsucc⟩ := entry_add h.cursor_lt hne
  refine ⟨hc, fun i hi x hx => ?_, fun hl => ?_⟩
  · cases i with
    | zero => rw [h0]; simpa using hx
    | succ i => rw [hsucc i (by omega)]; exact h.entry_eq i (by omega) x (by simpa using hx)
  · rw [List.length_cons] at hl ⊢
    rw [hsucc _ (by omega)]
    exact h.marker (by omega)

section Enumerate

variable {σ : Type} {t : TrackingSet} {idBefore : Nat} {fn : Nat → σ → σ}

theorem enumerateLoop_succ (fuel i count : Nat) (s : σ) :
    t.enumerateLoop idBefore fn (fuel + 1) i count s =
      if idBefore ≤ t.entry i then t.enumerateLoop idBefore fn fuel (i + 1) count s
      else if idBefore - 64 < t.entry i then
        t.enumerateLoop idBefore fn fuel (i + 1) (count + 1) (fn (t.entry i) s)
      else (count, s) := rfl

/-- A property that every call keeps holds at the end of the loop. -/
theorem enumerateLoop_induct {P : σ → Prop} (hP : ∀ c s, P s → P (fn c s)) :
    ∀ (fuel i count : Nat) (s : σ), P s → P (t.enumerateLoop idBefore fn fuel i count s).2
  | 0, _, _, _, hs => hs
  | fuel + 1, i, count, s, hs => by
    rw [enumerateLoop_succ]
    split
    · exact enumerateLoop_induct hP fuel _ _ _ hs
    · split
      · exact enumerateLoop_induct hP fuel _ _ _ (hP _ _ hs)
      · exact hs

/-- The loop reaches entry `j` if no entry before it is too old, and what the call there
establishes is kept. -/
theorem enumerateLoop_reach {P : σ → Prop} {j : Nat} (hnew : t.entry j < idBefore)
    (hold : ∀ i ≤ j, idBefore < t.entry i + 64) (hid : 64 < idBefore)
    (hj : ∀ s, P (fn (t.entry j) s)) (hP : ∀ c s, P s → P (fn c s)) :
    ∀ (fuel i count : Nat) (s : σ), i ≤ j → j < i + fuel →
      P (t.enumerateLoop idBefore fn fuel i count s).2
  | 0, i, _, _, hi, hf => by omega
  | fuel + 1, i, count, s, hi, hf => by
    have hwin := hold i hi
    rw [enumerateLoop_succ]
    by_cases he : i = j
    · subst he
      rw [if_neg (by omega), if_pos (by omega)]
      exact enumerateLoop_induct hP fuel _ _ _ (hj s)
    · have step := fun count s => enumerateLoop_reach hnew hold hid hj hP fuel (i + 1) count s
        (by omega) (by omega)
      split
      · exact step _ _
      · rw [if_pos (by omega)]
        exact step _ _

end Enumerate

/-- In a strictly decreasing list the entry at `j` is at least `j` below any bound of the head. -/
theorem add_le_of_getElem? : ∀ {L : List Nat} {m j x : Nat}, L.Pairwise (· > ·) →
    (∀ y, L.head? = some y → y ≤ m) → L[j]? = some x → j + x ≤ m
  | [], _, j, x, _, _, hx => by simp at hx
  | y :: L, m, 0, x, _, hm, hx => by
    have := hm y rfl
    have hxy : y = x := by simpa using hx
    omega
  | y :: L, m, j + 1, x, hs, hm, hx => by
    have hy := hm y rfl
    have hx' : L[j]? = some x := by simpa using hx
    obtain ⟨hlt, hs'⟩ := List.pairwise_cons.mp hs
    have := add_le_of_getElem? (m := y - 1) hs' (fun z hz => ?_) hx'
    · have := hlt x (List.mem_of_getElem? hx')
      omega
    · have := hlt z (List.mem_of_mem_head? hz)
      omega

/-- **Every reader in the window is visited**, if it is among the newest 64. -/
theorem mem_enumerate {t : TrackingSet} {L : List Nat} (h : Ring t L) (hs : L.Pairwise (· > ·))
    {id j x : Nat} (hid : 64 < id) (hj : L[j]? = some x) (hj' : j < 64) (hx : x < id)
    (hwin : id < x + 64) {wait : FenceSet} :
    x ∈ (t.enumerate id (fun c wait => wait.set c) wait).2 := by
  have hent : t.entry j = x := h.entry_eq j hj' x hj
  refine enumerateLoop_reach (P := fun w => x ∈ w) (j := j) (hent ▸ hx) (fun i hi => ?_) hid
    (fun s => (FenceSet.mem_set _ _ _).mpr (Or.inl (by rw [hent])))
    (fun c s hc => (FenceSet.mem_set _ _ _).mpr (Or.inr hc)) kLane 0 0 wait (Nat.zero_le j)
    (by rw [kLane_eq]; omega)
  obtain ⟨hlen, hval⟩ := List.getElem?_eq_some_iff.mp hj
  have hi' : i < L.length := by omega
  rw [h.entry_eq i (by omega) L[i] (List.getElem?_eq_getElem hi')]
  rcases Nat.lt_or_eq_of_le hi with hlt | rfl
  · have := List.pairwise_iff_getElem.mp hs i j hi' hlen hlt
    omega
  · omega

end TrackingSet

end Dxmt
