import Dxmt.Barrier

/-!
# Visibility slots: `VisibilityResultOffsetBumpState`

While an occlusion query is active, the draws of a render encoder count into a slot of the
visibility result buffer. `VisibilityResultOffsetBumpState` picks the slot: it moves to the next one
only when a query begins or ends after a draw, or when the encoder ends. `SetVisibilityMode` is
recorded when the slot differs from the one before it in the same encoder; a fresh encoder counts
nowhere.

`~0uLL` as an offset is `none`. `executed` is the reading of a command stream by the GPU: every draw
with the visibility mode it runs under. Slots are not bounded by the 32 bits of the `unsigned` that
the queries keep.

Results: `RenderStream.Tracked` links the cached offset to the stream it was recorded into,
`recordDraw_executed` says under which mode a draw runs, and `Tracked.recordDraw_countedInto` which
slot it counts into.

Source: `dxmt_occlusion_query.hpp:14-81`, `dxmt_context.cpp:1976-1994`.
-/

namespace Dxmt

/-- `WMTVisibilityResultMode`. -/
inductive WMTVisibilityResultMode where
  | disabled
  | boolean
  | counting
deriving DecidableEq

/-- The visibility mode of an encoder on the GPU, with its byte offset in the result buffer. -/
structure Visibility where
  mode : WMTVisibilityResultMode
  offset : Nat
deriving DecidableEq

namespace Visibility

/-- The mode at the start of an encoder. -/
def disabled : Visibility := ⟨.disabled, 0⟩

/-- Counting into a slot of eight bytes. -/
def counting (slot : Nat) : Visibility := ⟨.counting, slot <<< 3⟩

theorem counting_ne_disabled (slot : Nat) : counting slot ≠ disabled := by
  intro h
  cases congrArg mode h

theorem counting_inj {k l : Nat} : counting k = counting l ↔ k = l := by
  constructor
  · intro h
    have hoff : k <<< 3 = l <<< 3 := congrArg offset h
    rw [Nat.shiftLeft_eq, Nat.shiftLeft_eq] at hoff
    exact Nat.eq_of_mul_eq_mul_right (by decide) hoff
  · exact congrArg counting

/-- The mode for an offset of `tryGetNextWriteOffset`. -/
def ofOffset : Option Nat → Visibility
  | none => disabled
  | some slot => counting slot

end Visibility

/-- The stage whose buffer a `wmtcmd_render_setbuffer` sets. -/
inductive SetBufferStage where
  | vertex
  | fragment
  | object
  | mesh
deriving DecidableEq

/-- The commands of a render encoder that the development looks at. -/
inductive RenderCommand (Draw : Type) where
  | setVisibilityMode (v : Visibility)
  | draw (d : Draw)
  | barrier (k : RenderBarrier)
  | setBuffer (stage : SetBufferStage) (buffer index : Nat)
deriving DecidableEq

namespace RenderCommand

variable {Draw : Type}

/-- The draws of a stream, each with the visibility mode it runs under. -/
def executed (v : Visibility) : List (RenderCommand Draw) → List (Draw × Visibility)
  | [] => []
  | .setVisibilityMode v' :: cs => executed v' cs
  | .draw d :: cs => (d, v) :: executed v cs
  | .barrier _ :: cs => executed v cs
  | .setBuffer .. :: cs => executed v cs

/-- The visibility mode a stream leaves. -/
def finalVisibility (v : Visibility) : List (RenderCommand Draw) → Visibility
  | [] => v
  | .setVisibilityMode v' :: cs => finalVisibility v' cs
  | .draw _ :: cs => finalVisibility v cs
  | .barrier _ :: cs => finalVisibility v cs
  | .setBuffer .. :: cs => finalVisibility v cs

theorem executed_append (v : Visibility) (cs ds : List (RenderCommand Draw)) :
    executed v (cs ++ ds) = executed v cs ++ executed (finalVisibility v cs) ds := by
  induction cs generalizing v with
  | nil => rfl
  | cons c cs ih => cases c <;> simp [executed, finalVisibility, ih]

theorem finalVisibility_append (v : Visibility) (cs ds : List (RenderCommand Draw)) :
    finalVisibility v (cs ++ ds) = finalVisibility (finalVisibility v cs) ds := by
  induction cs generalizing v with
  | nil => rfl
  | cons c cs ih => cases c <;> simp [finalVisibility, ih]

end RenderCommand

/-! ## The bump state -/

/-- `VisibilityResultOffsetBumpState`. -/
structure VisibilityResultOffsetBumpState where
  withinEncoder : Bool := false
  currentDataIsDirty : Bool := false
  previousOffset : Option Nat := none
  nextOffset : Nat := 0
deriving DecidableEq

namespace VisibilityResultOffsetBumpState

/-- `beginEncoder`. -/
def beginEncoder (s : VisibilityResultOffsetBumpState) : VisibilityResultOffsetBumpState :=
  { s with withinEncoder := true }

/-- `getNextWriteOffset`: a draw with active queries counts. -/
def getNextWriteOffset (s : VisibilityResultOffsetBumpState) (hasActiveOcclusionQueries : Bool) :
    Option Nat × VisibilityResultOffsetBumpState :=
  if hasActiveOcclusionQueries then
    (some s.nextOffset, { s with currentDataIsDirty := true })
  else
    (none, s)

/-- The offset is written only when the call returns `true`. -/
def tryGetNextWriteOffset (s : VisibilityResultOffsetBumpState) (hasActiveOcclusionQueries : Bool) :
    Bool × Option Nat × VisibilityResultOffsetBumpState :=
  let (offset, s) := s.getNextWriteOffset hasActiveOcclusionQueries
  if offset = s.previousOffset then
    (false, offset, s)
  else
    (true, offset, { s with previousOffset := offset })

/-- `getNextReadOffset`: what has been counted ends here. -/
def getNextReadOffset (s : VisibilityResultOffsetBumpState) :
    Nat × VisibilityResultOffsetBumpState :=
  if s.withinEncoder && s.currentDataIsDirty then
    (s.nextOffset + 1, { s with currentDataIsDirty := false, nextOffset := s.nextOffset + 1 })
  else
    (s.nextOffset, s)

/-- `endEncoder`. -/
def endEncoder (s : VisibilityResultOffsetBumpState) : VisibilityResultOffsetBumpState :=
  let s := { s with withinEncoder := false, previousOffset := none }
  if s.currentDataIsDirty then
    { s with nextOffset := s.nextOffset + 1, currentDataIsDirty := false }
  else
    s

/-- `reset`: how many offsets were used. -/
def reset (s : VisibilityResultOffsetBumpState) : Nat × VisibilityResultOffsetBumpState :=
  (s.nextOffset, { s with nextOffset := 0 })

/-- The number of slots in use, the open one included. -/
def numResults (s : VisibilityResultOffsetBumpState) : Nat :=
  s.nextOffset + s.currentDataIsDirty.toNat

/-- A query that begins or ends closes the open slot. -/
theorem getNextReadOffset_eq {s : VisibilityResultOffsetBumpState}
    (h : s.withinEncoder = false → s.currentDataIsDirty = false) :
    s.getNextReadOffset =
      (s.numResults, { s with currentDataIsDirty := false, nextOffset := s.numResults }) := by
  obtain ⟨within, dirty, previous, next⟩ := s
  unfold getNextReadOffset numResults
  cases within <;> cases dirty
  · rfl
  · exact absurd (h rfl) Bool.noConfusion
  · rfl
  · rfl

/-- So does the end of an encoder. -/
theorem endEncoder_eq (s : VisibilityResultOffsetBumpState) :
    s.endEncoder = ⟨false, false, none, s.numResults⟩ := by
  obtain ⟨within, dirty, previous, next⟩ := s
  cases dirty <;> rfl

end VisibilityResultOffsetBumpState

/-- The commands of a `RenderEncoderData`, and whether it is given the result buffer. -/
structure RenderStream (Draw : Type) where
  cmd : List (RenderCommand Draw) := []
  useVisibilityResult : Bool := false

/-- `bumpVisibilityResultOffset`. -/
def bumpVisibilityResultOffset {Draw : Type} (activeVisibilityQueryCount : Nat)
    (s : VisibilityResultOffsetBumpState) (r : RenderStream Draw) :
    VisibilityResultOffsetBumpState × RenderStream Draw :=
  let r := { r with
    useVisibilityResult := r.useVisibilityResult || activeVisibilityQueryCount != 0 }
  match s.tryGetNextWriteOffset (activeVisibilityQueryCount != 0) with
  | (true, offset, s) =>
    (s, { r with cmd := r.cmd ++ [.setVisibilityMode (.ofOffset offset)] })
  | (false, _, s) => (s, r)

/-- A draw of the API: the offset is bumped, then the draw is recorded. -/
def recordDraw {Draw : Type} (activeVisibilityQueryCount : Nat) (d : Draw)
    (s : VisibilityResultOffsetBumpState) (r : RenderStream Draw) :
    VisibilityResultOffsetBumpState × RenderStream Draw :=
  let (s, r) := bumpVisibilityResultOffset activeVisibilityQueryCount s r
  (s, { r with cmd := r.cmd ++ [.draw d] })

/-! ## What a stream counts -/

namespace RenderStream

variable {Draw : Type} {s : VisibilityResultOffsetBumpState} {r : RenderStream Draw}

/-- The draws that count into a slot. -/
def countedInto (r : RenderStream Draw) (slot : Nat) : List Draw :=
  if r.useVisibilityResult then
    ((RenderCommand.executed .disabled r.cmd).filter (·.2 = .counting slot)).map Prod.fst
  else
    []

/-- The cached offset is the mode that the stream leaves, and a stream without the result buffer
never counts. -/
structure Tracked (s : VisibilityResultOffsetBumpState) (r : RenderStream Draw) : Prop where
  mode : RenderCommand.finalVisibility .disabled r.cmd = .ofOffset s.previousOffset
  unused : r.useVisibilityResult = false →
    ∀ p ∈ RenderCommand.executed .disabled r.cmd, p.2 = .disabled

theorem tracked_fresh (h : s.previousOffset = none) : Tracked s ({} : RenderStream Draw) := by
  refine ⟨?_, fun _ p hp => absurd hp List.not_mem_nil⟩
  rw [h]
  rfl

/-- A tracked stream counts what its modes say, given the buffer or not. -/
theorem Tracked.countedInto (h : Tracked s r) (slot : Nat) :
    r.countedInto slot =
      ((RenderCommand.executed .disabled r.cmd).filter (·.2 = .counting slot)).map Prod.fst := by
  unfold RenderStream.countedInto
  split
  · rfl
  · next hu =>
    rw [List.filter_eq_nil_iff.mpr, List.map_nil]
    intro p hp
    rw [h.unused (Bool.eq_false_iff.mpr hu) p hp, decide_eq_true_iff]
    exact (Visibility.counting_ne_disabled slot).symm

/-- **A draw runs under the mode of its offset**: the open slot when a query is active, else none.
-/
theorem recordDraw_executed (h : r.Tracked s) (n : Nat) (d : Draw) :
    RenderCommand.executed .disabled (recordDraw n d s r).2.cmd =
        RenderCommand.executed .disabled r.cmd ++
          [(d, .ofOffset (s.getNextWriteOffset (n != 0)).1)] ∧
      RenderCommand.finalVisibility .disabled (recordDraw n d s r).2.cmd =
        .ofOffset (s.getNextWriteOffset (n != 0)).1 ∧
      (recordDraw n d s r).1.previousOffset = (s.getNextWriteOffset (n != 0)).1 := by
  have hprev : (s.getNextWriteOffset (n != 0)).2.previousOffset = s.previousOffset := by
    unfold VisibilityResultOffsetBumpState.getNextWriteOffset
    split <;> rfl
  unfold recordDraw bumpVisibilityResultOffset VisibilityResultOffsetBumpState.tryGetNextWriteOffset
  generalize s.getNextWriteOffset (n != 0) = w at hprev ⊢
  obtain ⟨offset, s'⟩ := w
  dsimp only at hprev ⊢
  by_cases ho : offset = s'.previousOffset
  · simp only [if_pos ho, RenderCommand.executed_append, RenderCommand.finalVisibility_append,
      h.mode]
    rw [ho, hprev]
    exact ⟨rfl, rfl, rfl⟩
  · simp only [if_neg ho, RenderCommand.executed_append, RenderCommand.finalVisibility_append,
      List.append_assoc]
    exact ⟨rfl, rfl, trivial⟩

theorem recordDraw_use (n : Nat) (d : Draw) :
    (recordDraw n d s r).2.useVisibilityResult = (r.useVisibilityResult || n != 0) := by
  unfold recordDraw bumpVisibilityResultOffset
  obtain ⟨changed, offset, s'⟩ := s.tryGetNextWriteOffset (n != 0)
  cases changed <;> rfl

theorem recordDraw_bump (n : Nat) (d : Draw) :
    (recordDraw n d s r).1.nextOffset = s.nextOffset ∧
      (recordDraw n d s r).1.withinEncoder = s.withinEncoder ∧
      (recordDraw n d s r).1.currentDataIsDirty = (s.currentDataIsDirty || n != 0) := by
  unfold recordDraw bumpVisibilityResultOffset VisibilityResultOffsetBumpState.tryGetNextWriteOffset
    VisibilityResultOffsetBumpState.getNextWriteOffset
  cases n != 0
  · by_cases hp : none = s.previousOffset <;> simp [hp]
  · by_cases hp : some s.nextOffset = s.previousOffset <;> simp [hp]

theorem Tracked.recordDraw (h : r.Tracked s) (n : Nat) (d : Draw) :
    (recordDraw n d s r).2.Tracked (recordDraw n d s r).1 := by
  obtain ⟨hexec, hfinal, hprev⟩ := recordDraw_executed h n d
  refine ⟨by rw [hfinal, hprev], fun hu p hp => ?_⟩
  rw [recordDraw_use, Bool.or_eq_false_iff] at hu
  rw [hexec] at hp
  rcases List.mem_append.mp hp with hp | hp
  · exact h.unused hu.1 p hp
  · rw [List.mem_singleton.mp hp, hu.2]
    rfl

/-- A draw is counted into the open slot, or nowhere. -/
theorem Tracked.recordDraw_countedInto (h : r.Tracked s) (n : Nat) (d : Draw) (slot : Nat) :
    (Dxmt.recordDraw n d s r).2.countedInto slot =
      r.countedInto slot ++ (if n ≠ 0 ∧ slot = s.nextOffset then [d] else []) := by
  rw [(h.recordDraw n d).countedInto, h.countedInto, (recordDraw_executed h n d).1,
    List.filter_append, List.map_append]
  congr 1
  by_cases hn : n = 0
  · rw [hn, if_neg (fun h => h.1 rfl)]
    show List.map Prod.fst (List.filter (·.2 = Visibility.counting slot)
      [(d, Visibility.disabled)]) = _
    have hne : ¬ Visibility.disabled = .counting slot :=
      (Visibility.counting_ne_disabled slot).symm
    simp [hne]
  · have hb : (n != 0) = true := bne_iff_ne.mpr hn
    rw [hb]
    show List.map Prod.fst (List.filter (·.2 = Visibility.counting slot)
      [(d, Visibility.counting s.nextOffset)]) = _
    by_cases hs : slot = s.nextOffset
    · rw [if_pos ⟨hn, hs⟩, hs]
      simp
    · rw [if_neg (fun h => hs h.2)]
      have hne : ¬ Visibility.counting s.nextOffset = .counting slot := by
        rw [Visibility.counting_inj]
        exact fun he => hs he.symm
      simp [hne]

end RenderStream

end Dxmt
