import Mathlib.Algebra.Group.Nat.Defs
import Mathlib.Data.List.Nodup
import Mathlib.Data.List.Pairwise
import Mathlib.Logic.Function.Basic

/-!
# Command allocators: `Reset`, `MarkCommandListSubmitted`, `CompleteCommandListSubmission`

A command list records on one allocator at a time. `ExecuteCommandLists` marks one use of the
allocator for every list that it submits, with a serial; when the work is done the deferred readback
of the chunk completes the use. `Reset` of the allocator looks at the list that records and at a
counter of pending uses.

The allocator keeps the last serial that completed, and a completion with a smaller serial returns
before the counter is decremented. Uses complete out of the order of their serials when they are
submitted to different queues, because a queue holds an `Execute` back behind a `Wait`.

Results: `Inv.run` gives the counter as the uses in flight plus the completions that were dropped,
and `reset_iff_idle` is the statement about runs. The objects are numbered; a number is free again
when the list is destroyed, as an address is. The pipeline state of a list and its records are left
out.

Source: `d3d12_command_allocator.cpp:58-97`, `d3d12_command_list.cpp:142-309`.
-/

namespace Dxmt

/-- The supported values of `D3D12_COMMAND_LIST_TYPE`. -/
inductive CommandListType where
  | direct
  | bundle
  | compute
  | copy
deriving DecidableEq

/-- The results of the calls. -/
inductive HResult where
  | ok
  | fail
  | invalidArg
deriving DecidableEq

/-- `CommandAllocatorImpl`; the serials are `UINT64`, the counter is a `UINT`. -/
structure CommandAllocator where
  type : CommandListType
  recordingList : Option Nat := none
  lastSubmissionSerial : Nat := 0
  lastCompletedSubmissionSerial : Nat := 0
  pendingSubmissionCount : Nat := 0

namespace CommandAllocator

/-- `ID3D12CommandAllocator::Reset`: only while nothing is recorded and nothing is pending. -/
def reset (a : CommandAllocator) : HResult :=
  if a.recordingList.isSome = true ∨ a.pendingSubmissionCount ≠ 0 then .fail else .ok

/-- `none` when a list records already. -/
def beginCommandListRecording (a : CommandAllocator) (list : Nat) : Option CommandAllocator :=
  if a.recordingList.isSome then none else some { a with recordingList := some list }

/-- `EndCommandListRecording`: for the list that records. -/
def endCommandListRecording (a : CommandAllocator) (list : Nat) : CommandAllocator :=
  if a.recordingList = some list then { a with recordingList := none } else a

/-- `MarkCommandListSubmitted`: one more is pending; its serial comes back. -/
def markCommandListSubmitted (a : CommandAllocator) : CommandAllocator × Nat :=
  let serial := (a.lastSubmissionSerial + 1) % 2 ^ 64
  ({ a with
      pendingSubmissionCount := (a.pendingSubmissionCount + 1) % 2 ^ 32
      lastSubmissionSerial := serial }, serial)

/-- `CompleteCommandListSubmission`: one less is pending, unless the serial is not above the last
completed one. -/
def completeCommandListSubmission (a : CommandAllocator) (serial : Nat) : CommandAllocator :=
  if serial ≠ 0 ∧ serial ≤ a.lastCompletedSubmissionSerial then a
  else
    { a with
      lastCompletedSubmissionSerial := serial
      pendingSubmissionCount := a.pendingSubmissionCount - 1 }

end CommandAllocator

/-- `GraphicsCommandListImpl`. -/
structure GraphicsCommandList where
  type : CommandListType
  allocator : Option Nat
  closed : Bool := false
  recordingError : Bool := false

/-- An allocator that a submission uses, and the serial of the use. -/
structure SubmittedCommandAllocatorUse where
  allocator : Nat
  serial : Nat
deriving DecidableEq

/-- The allocators and lists that exist, and the uses that are submitted and not completed. -/
structure AllocatorDevice where
  allocators : Nat → Option CommandAllocator := fun _ => none
  lists : Nat → Option GraphicsCommandList := fun _ => none
  inFlight : List SubmittedCommandAllocatorUse := []

namespace AllocatorDevice

/-- Changes one allocator. -/
def setAllocator (s : AllocatorDevice) (a : Nat) (st : CommandAllocator) : AllocatorDevice :=
  { s with allocators := Function.update s.allocators a (some st) }

/-- Changes one list. -/
def setList (s : AllocatorDevice) (l : Nat) (list : Option GraphicsCommandList) :
    AllocatorDevice :=
  { s with lists := Function.update s.lists l list }

/-- `allocator_->EndCommandListRecording(this)`, when there is an allocator. -/
def endRecording (s : AllocatorDevice) (l : Nat) (allocator : Option Nat) : AllocatorDevice :=
  match allocator with
  | none => s
  | some a =>
    match s.allocators a with
    | none => s
    | some st => s.setAllocator a (st.endCommandListRecording l)

/-- A new allocator. -/
def createCommandAllocator (s : AllocatorDevice) (a : Nat) (type : CommandListType) :
    AllocatorDevice :=
  if (s.allocators a).isSome then s else s.setAllocator a { type := type }

/-- A new list; one with an allocator starts recording. -/
def createCommandList (s : AllocatorDevice) (l : Nat) (type : CommandListType)
    (allocator : Option Nat) : AllocatorDevice × HResult :=
  if (s.lists l).isSome then (s, .ok)
  else
    match allocator with
    | none => (s, .invalidArg)
    | some a =>
      match s.allocators a with
      | none => (s, .invalidArg)
      | some st =>
        if st.type ≠ type then (s, .invalidArg)
        else
          match st.beginCommandListRecording l with
          | none => (s, .invalidArg)
          | some st =>
            ((s.setAllocator a st).setList l (some { type := type, allocator := some a }), .ok)

/-- The destructor of the list. -/
def destroy (s : AllocatorDevice) (l : Nat) : AllocatorDevice :=
  match s.lists l with
  | none => s
  | some list =>
    (if list.closed then s else s.endRecording l list.allocator).setList l none

/-- `Close`: the recording ends. -/
def close (s : AllocatorDevice) (l : Nat) : AllocatorDevice × HResult :=
  match s.lists l with
  | none => (s, .ok)
  | some list =>
    if list.closed then (s, .fail)
    else
      ((s.setList l (some { list with closed := true })).endRecording l list.allocator,
        if list.recordingError then .invalidArg else .ok)

/-- `Reset` of a list; `compatible` is the answer of `IsPipelineStateCompatible`. -/
def resetList (s : AllocatorDevice) (l : Nat) (allocator : Option Nat) (compatible : Bool) :
    AllocatorDevice × HResult :=
  match s.lists l with
  | none => (s, .ok)
  | some list =>
    match allocator with
    | none => (s, .invalidArg)
    | some a =>
      match s.allocators a with
      | none => (s, .invalidArg)
      | some state =>
        if state.type ≠ list.type then (s, .invalidArg)
        else if compatible = false then (s, .invalidArg)
        else
          let opened := some { list with
            allocator := some a, closed := false, recordingError := false }
          if list.allocator = some a then
            let state := state.endCommandListRecording l
            match state.beginCommandListRecording l with
            | none => (s.setAllocator a state, .invalidArg)
            | some state => ((s.setAllocator a state).setList l opened, .ok)
          else
            match state.beginCommandListRecording l with
            | none => (s, .invalidArg)
            | some state =>
              (((s.setAllocator a state).endRecording l list.allocator).setList l opened, .ok)

/-- `ResourceBarrier` with a barrier that is not valid. -/
def recordError (s : AllocatorDevice) (l : Nat) : AllocatorDevice :=
  match s.lists l with
  | none => s
  | some list => s.setList l (some { list with recordingError := true })

/-- The list is submitted by a queue of the type. `none` stands for a null or foreign list. -/
def submittable (s : AllocatorDevice) (type : CommandListType) (l : Option Nat) :
    Option GraphicsCommandList :=
  (l.bind s.lists).filter fun list => list.closed && decide (list.type = type)

/-- `MarkSubmittedToQueue`. -/
def markSubmittedToQueue (s : AllocatorDevice) (list : GraphicsCommandList) : AllocatorDevice :=
  match list.allocator with
  | none => s
  | some a =>
    match s.allocators a with
    | none => s
    | some st =>
      let (st, serial) := st.markCommandListSubmitted
      { s.setAllocator a st with inFlight := s.inFlight ++ [⟨a, serial⟩] }

/-- `ExecuteCommandLists`: every submittable list marks its allocator. -/
def executeCommandLists (s : AllocatorDevice) (type : CommandListType) (ls : List (Option Nat)) :
    AllocatorDevice :=
  ls.foldl (fun s l =>
    match s.submittable type l with
    | none => s
    | some list => s.markSubmittedToQueue list) s

/-- The deferred readback of a use. -/
def complete (s : AllocatorDevice) (use : SubmittedCommandAllocatorUse) : AllocatorDevice :=
  match s.allocators use.allocator with
  | none => s
  | some st =>
    { s.setAllocator use.allocator (st.completeCommandListSubmission use.serial) with
      inFlight := s.inFlight.erase use }

/-! ## Runs -/

/-- The calls of the application and the completions of the device. -/
inductive Call where
  | createCommandAllocator (a : Nat) (type : CommandListType)
  | createCommandList (l : Nat) (type : CommandListType) (allocator : Option Nat)
  | destroy (l : Nat)
  | close (l : Nat)
  | resetList (l : Nat) (allocator : Option Nat) (compatible : Bool)
  | recordError (l : Nat)
  | executeCommandLists (type : CommandListType) (ls : List (Option Nat))

/-- One call. -/
def step (s : AllocatorDevice) : Call → AllocatorDevice
  | .createCommandAllocator a type => s.createCommandAllocator a type
  | .createCommandList l type allocator => (s.createCommandList l type allocator).1
  | .destroy l => s.destroy l
  | .close l => (s.close l).1
  | .resetList l allocator compatible => (s.resetList l allocator compatible).1
  | .recordError l => s.recordError l
  | .executeCommandLists type ls => s.executeCommandLists type ls

/-- How many uses of the allocator the call submits. -/
def submits (s : AllocatorDevice) (type : CommandListType) (ls : List (Option Nat)) (a : Nat) :
    Nat :=
  ls.countP fun l => decide ((s.submittable type l).bind (·.allocator) = some a)

/-- The counter and the serials of every allocator have room for the uses that the call submits. -/
def Room (s : AllocatorDevice) : Call → Prop
  | .executeCommandLists type ls => ∀ a st, s.allocators a = some st →
      st.pendingSubmissionCount + s.submits type ls a < 2 ^ 32 ∧
        st.lastSubmissionSerial + s.submits type ls a < 2 ^ 64
  | _ => True

/-- A run with the uses that completed, the latest first. Uses complete in any order. -/
inductive AllocatorRun : AllocatorDevice → List SubmittedCommandAllocatorUse → Prop
  | init : AllocatorRun {} []
  | call {s done} (run : AllocatorRun s done) (call : Call) (room : s.Room call) :
      AllocatorRun (s.step call) done
  | complete {s done} (run : AllocatorRun s done) (use : SubmittedCommandAllocatorUse)
      (hmem : use ∈ s.inFlight) : AllocatorRun (s.complete use) (use :: done)

/-- The list `l` is open and records on the allocator `a`. -/
def OpenOn (s : AllocatorDevice) (a l : Nat) : Prop :=
  ∃ list, s.lists l = some list ∧ list.closed = false ∧ list.allocator = some a

/-- No list is open on the allocator, and every use of it has completed. -/
structure Idle (s : AllocatorDevice) (a : Nat) : Prop where
  closed : ∀ l, ¬ s.OpenOn a l
  completed : ∀ use ∈ s.inFlight, use.allocator ≠ a

/-- The serials of the uses of an allocator. -/
def serialsOf (a : Nat) (uses : List SubmittedCommandAllocatorUse) : List Nat :=
  (uses.filter (·.allocator = a)).map (·.serial)

/-- The uses of the allocator completed in the order in which they were submitted. -/
def InOrder (a : Nat) (done : List SubmittedCommandAllocatorUse) : Prop :=
  (serialsOf a done).Pairwise (· > ·)

instance (a : Nat) (done : List SubmittedCommandAllocatorUse) : Decidable (InOrder a done) :=
  inferInstanceAs (Decidable ((serialsOf a done).Pairwise (· > ·)))

/-! ## Which list records -/

variable {s : AllocatorDevice} {done : List SubmittedCommandAllocatorUse} {a b l m : Nat}
  {st : CommandAllocator}

/-- The list that the allocator lets record. -/
def recorder (s : AllocatorDevice) (a : Nat) : Option Nat :=
  (s.allocators a).bind (·.recordingList)

/-- An allocator knows the list that is open on it. -/
def Recording (s : AllocatorDevice) : Prop :=
  ∀ a l, s.recorder a = some l ↔ s.OpenOn a l

/-- Changing one allocator changes what that one lets record. -/
theorem recorder_setAllocator :
    (s.setAllocator a st).recorder b = some m ↔
      (b = a ∧ st.recordingList = some m) ∨ (b ≠ a ∧ s.recorder b = some m) := by
  by_cases h : b = a <;> simp [recorder, setAllocator, h]

/-- Changing one list changes what that one records on. -/
theorem openOn_setList {list : Option GraphicsCommandList} :
    (s.setList l list).OpenOn b m ↔
      (m = l ∧ ∃ x, list = some x ∧ x.closed = false ∧ x.allocator = some b) ∨
        (m ≠ l ∧ s.OpenOn b m) := by
  by_cases h : m = l <;> simp [OpenOn, setList, h]

/-- Only the list that records ends its recording. -/
theorem recordingList_endCommandListRecording :
    (st.endCommandListRecording l).recordingList = some m ↔
      st.recordingList = some m ∧ m ≠ l := by
  unfold CommandAllocator.endCommandListRecording
  split <;> grind

/-- A recording begins where there was none. -/
theorem beginCommandListRecording_eq_some {st' : CommandAllocator}
    (h : st.beginCommandListRecording l = some st') :
    st.recordingList = none ∧ st' = { st with recordingList := some l } := by
  unfold CommandAllocator.beginCommandListRecording at h
  split at h
  · cases h
  · next hnone => exact ⟨Option.not_isSome_iff_eq_none.mp hnone, (Option.some.inj h).symm⟩

/-- Only the list that records ends its recording. -/
theorem recorder_endRecording {allocator : Option Nat} :
    (s.endRecording l allocator).recorder b = some m ↔
      s.recorder b = some m ∧ ¬ (allocator = some b ∧ m = l) := by
  unfold endRecording
  cases allocator with
  | none => simp
  | some a =>
    dsimp only
    cases hst : s.allocators a with
    | none => grind [recorder]
    | some st =>
      dsimp only
      rw [recorder_setAllocator, recordingList_endCommandListRecording]
      grind [recorder]

theorem lists_endRecording {allocator : Option Nat} :
    (s.endRecording l allocator).lists = s.lists := by
  unfold endRecording
  split
  · rfl
  · split <;> rfl

theorem openOn_endRecording {allocator : Option Nat} :
    (s.endRecording l allocator).OpenOn b m ↔ s.OpenOn b m := by
  unfold OpenOn
  rw [lists_endRecording]

theorem openOn_setAllocator : (s.setAllocator a st).OpenOn b m ↔ s.OpenOn b m :=
  Iff.rfl

theorem recorder_setList {list : Option GraphicsCommandList} :
    (s.setList l list).recorder b = s.recorder b :=
  rfl

theorem recorder_of_allocator (h : s.allocators a = some st) : s.recorder a = st.recordingList := by
  unfold recorder
  rw [h, Option.bind_some]

/-- A new allocator records nothing. -/
theorem Recording.createCommandAllocator (h : s.Recording) (a : Nat) (type : CommandListType) :
    (s.createCommandAllocator a type).Recording := by
  unfold AllocatorDevice.createCommandAllocator
  split
  · exact h
  · next hnone =>
    have hrecorder : s.recorder a = none := by
      unfold recorder
      rw [Option.not_isSome_iff_eq_none.mp hnone, Option.bind_none]
    intro b m
    rw [recorder_setAllocator, openOn_setAllocator, ← h b m]
    grind

/-- The list starts to record on an allocator on which no list records. -/
theorem Recording.begin (h : s.Recording) {st' : CommandAllocator} {list : GraphicsCommandList}
    (hst : s.allocators a = some st) (hbegin : st.beginCommandListRecording l = some st')
    (hopen : list.closed = false) (halloc : list.allocator = some a)
    (hother : ∀ b, b ≠ a → ¬ s.OpenOn b l) :
    ((s.setAllocator a st').setList l (some list)).Recording := by
  obtain ⟨hnone, rfl⟩ := beginCommandListRecording_eq_some hbegin
  have hfree : ∀ m, ¬ s.OpenOn a m := fun m hm => by
    rw [← h a m, recorder_of_allocator hst, hnone] at hm
    cases hm
  intro b m
  rw [recorder_setList, recorder_setAllocator, openOn_setList, openOn_setAllocator, h b m]
  grind

/-- The list stops to record. -/
theorem Recording.stop (h : s.Recording) {list : GraphicsCommandList}
    {x : Option GraphicsCommandList} (hl : s.lists l = some list)
    (hx : ∀ y, x = some y → y.closed = true) :
    ((if list.closed then s else s.endRecording l list.allocator).setList l x).Recording := by
  intro b m
  rw [recorder_setList, openOn_setList]
  have hopen := h b m
  unfold OpenOn at hopen ⊢
  split
  · grind
  · rw [recorder_endRecording, lists_endRecording]
    grind

/-- A new list is recorded by its allocator. -/
theorem Recording.createCommandList (h : s.Recording) (l : Nat) (type : CommandListType)
    (allocator : Option Nat) : (s.createCommandList l type allocator).1.Recording := by
  unfold AllocatorDevice.createCommandList
  split
  · exact h
  next hnone =>
  cases allocator with
  | none => exact h
  | some a =>
    dsimp only
    cases hst : s.allocators a with
    | none => exact h
    | some st =>
      dsimp only
      split
      · exact h
      · cases hbegin : st.beginCommandListRecording l with
        | none => exact h
        | some st' =>
          refine h.begin hst hbegin rfl rfl fun b _ => ?_
          rintro ⟨list, hlist, -⟩
          exact hnone (Option.isSome_of_eq_some hlist)

/-- A list that goes ends its recording. -/
theorem Recording.destroy (h : s.Recording) (l : Nat) : (s.destroy l).Recording := by
  unfold AllocatorDevice.destroy
  cases hl : s.lists l with
  | none => exact h
  | some list => exact h.stop hl fun _ hy => nomatch hy

theorem setList_endRecording {allocator : Option Nat} {list : Option GraphicsCommandList} :
    (s.setList l list).endRecording m allocator = (s.endRecording m allocator).setList l list := by
  unfold endRecording
  cases allocator with
  | none => rfl
  | some a =>
    dsimp only [setList]
    cases s.allocators a <;> rfl

/-- A list that closes ends its recording. -/
theorem Recording.close (h : s.Recording) (l : Nat) : (s.close l).1.Recording := by
  unfold AllocatorDevice.close
  cases hl : s.lists l with
  | none => exact h
  | some list =>
    dsimp only
    split
    · exact h
    · next hopen =>
      have hstop := h.stop hl (x := some { list with closed := true }) fun y hy => by
        rw [← Option.some.inj hy]
      rw [if_neg hopen] at hstop
      dsimp only
      rw [setList_endRecording]
      exact hstop

/-- What changes no recording keeps the relation. -/
theorem Recording.setAllocator (h : s.Recording) (hst : s.allocators a = some st)
    {st' : CommandAllocator} (hsame : st'.recordingList = st.recordingList) :
    (s.setAllocator a st').Recording := by
  intro b m
  rw [recorder_setAllocator, openOn_setAllocator, ← h b m, hsame, ← recorder_of_allocator hst]
  grind

/-- A list that resets on the allocator that it has. -/
theorem Recording.restart (h : s.Recording) {list opened : GraphicsCommandList}
    {st' : CommandAllocator} (hl : s.lists l = some list) (halloc : list.allocator = some a)
    (hst : s.allocators a = some st)
    (hbegin : (st.endCommandListRecording l).beginCommandListRecording l = some st')
    (hopen : opened.closed = false) (hopened : opened.allocator = some a) :
    ((s.setAllocator a st').setList l (some opened)).Recording := by
  obtain ⟨hnone, rfl⟩ := beginCommandListRecording_eq_some hbegin
  have hfree : ∀ m, s.OpenOn a m → m = l := fun m hm => by
    by_contra hne
    rw [← h a m, recorder_of_allocator hst] at hm
    have := recordingList_endCommandListRecording.mpr ⟨hm, hne⟩
    rw [hnone] at this
    cases this
  have hother : ∀ b, s.OpenOn b l → b = a := by
    rintro b ⟨x, hx, -, hxb⟩
    rw [hl] at hx
    cases hx
    exact Option.some.inj (hxb.symm.trans halloc)
  intro b m
  rw [recorder_setList, recorder_setAllocator, openOn_setList, openOn_setAllocator, h b m]
  grind

/-- A list that is refused by the allocator that it has: another list records there. -/
theorem Recording.refused (h : s.Recording) (hst : s.allocators a = some st)
    (hbegin : (st.endCommandListRecording l).beginCommandListRecording l = none) :
    (s.setAllocator a (st.endCommandListRecording l)).Recording := by
  refine h.setAllocator hst ?_
  unfold CommandAllocator.beginCommandListRecording at hbegin
  split at hbegin
  · next hsome =>
    obtain ⟨m, hm⟩ := Option.isSome_iff_exists.mp hsome
    rw [hm, (recordingList_endCommandListRecording.mp hm).1]
  · cases hbegin

/-- A list that resets on another allocator. -/
theorem Recording.move (h : s.Recording) {list opened : GraphicsCommandList}
    {st' : CommandAllocator} (hl : s.lists l = some list) (halloc : list.allocator ≠ some a)
    (hst : s.allocators a = some st) (hbegin : st.beginCommandListRecording l = some st')
    (hopen : opened.closed = false) (hopened : opened.allocator = some a) :
    (((s.setAllocator a st').endRecording l list.allocator).setList l (some opened)).Recording := by
  obtain ⟨hnone, rfl⟩ := beginCommandListRecording_eq_some hbegin
  have hfree : ∀ m, ¬ s.OpenOn a m := fun m hm => by
    rw [← h a m, recorder_of_allocator hst, hnone] at hm
    cases hm
  have hother : ∀ b, s.OpenOn b l → list.allocator = some b := by
    rintro b ⟨x, hx, -, hxb⟩
    rw [hl] at hx
    cases hx
    exact hxb
  intro b m
  rw [recorder_setList, recorder_endRecording, recorder_setAllocator, openOn_setList,
    openOn_endRecording, openOn_setAllocator, h b m]
  grind

/-- A list that is reset records on the new allocator only. -/
theorem Recording.resetList (h : s.Recording) (l : Nat) (allocator : Option Nat)
    (compatible : Bool) : (s.resetList l allocator compatible).1.Recording := by
  unfold AllocatorDevice.resetList
  cases hl : s.lists l with
  | none => exact h
  | some list =>
    cases allocator with
    | none => exact h
    | some a =>
      dsimp only
      cases hst : s.allocators a with
      | none => exact h
      | some st =>
        dsimp only
        split
        · exact h
        split
        · exact h
        split
        · next halloc =>
          cases hbegin : (st.endCommandListRecording l).beginCommandListRecording l with
          | none => exact h.refused hst hbegin
          | some st' => exact h.restart hl halloc hst hbegin rfl rfl
        · next halloc =>
          cases hbegin : st.beginCommandListRecording l with
          | none => exact h
          | some st' => exact h.move hl halloc hst hbegin rfl rfl

/-- An error ends no recording. -/
theorem Recording.recordError (h : s.Recording) (l : Nat) : (s.recordError l).Recording := by
  unfold AllocatorDevice.recordError
  cases hl : s.lists l with
  | none => exact h
  | some list =>
    intro b m
    rw [recorder_setList, openOn_setList, h b m]
    unfold OpenOn
    grind

/-- A submission starts and ends no recording. -/
theorem Recording.markSubmittedToQueue (h : s.Recording) (list : GraphicsCommandList) :
    (s.markSubmittedToQueue list).Recording := by
  unfold AllocatorDevice.markSubmittedToQueue
  split
  · exact h
  · split
    · exact h
    · next hst => exact h.setAllocator hst rfl

theorem recordingList_completeCommandListSubmission (serial : Nat) :
    (st.completeCommandListSubmission serial).recordingList = st.recordingList := by
  unfold CommandAllocator.completeCommandListSubmission
  split <;> rfl

theorem Recording.complete (h : s.Recording) (use : SubmittedCommandAllocatorUse) :
    (s.complete use).Recording := by
  unfold AllocatorDevice.complete
  split
  · exact h
  · next hst => exact h.setAllocator hst (recordingList_completeCommandListSubmission use.serial)

theorem Recording.executeCommandLists (h : s.Recording) (type : CommandListType)
    (ls : List (Option Nat)) : (s.executeCommandLists type ls).Recording := by
  unfold AllocatorDevice.executeCommandLists
  induction ls generalizing s with
  | nil => exact h
  | cons l ls ih =>
    refine ih ?_
    dsimp only
    split
    · exact h
    · exact h.markSubmittedToQueue _

/-- Every call keeps the relation between lists and allocators. -/
theorem Recording.step (h : s.Recording) (call : Call) : (s.step call).Recording := by
  cases call with
  | createCommandAllocator a type => exact h.createCommandAllocator a type
  | createCommandList l type allocator => exact h.createCommandList l type allocator
  | destroy l => exact h.destroy l
  | close l => exact h.close l
  | resetList l allocator compatible => exact h.resetList l allocator compatible
  | recordError l => exact h.recordError l
  | executeCommandLists type ls => exact h.executeCommandLists type ls

/-! ## The counter -/

/-- The largest serial that completed. -/
def latest (done : List Nat) : Nat :=
  done.foldr max 0

/-- The completions that return before they decrement the counter. -/
def dropped : List Nat → Nat
  | [] => 0
  | serial :: done => (if serial ≤ latest done then 1 else 0) + dropped done

/-- A serial is later than all that are done where it is above the highest of them. -/
theorem latest_lt_iff {serial : Nat} (hpos : 0 < serial) (done : List Nat) :
    latest done < serial ↔ ∀ n ∈ done, n < serial := by
  induction done with
  | nil => simpa [latest] using hpos
  | cons n done ih =>
    rw [List.forall_mem_cons, ← ih]
    exact Nat.max_lt

/-- No completion is dropped exactly when they come in order. -/
theorem dropped_eq_zero_iff {done : List Nat} (hpos : ∀ n ∈ done, 0 < n) :
    dropped done = 0 ↔ done.Pairwise (· > ·) := by
  induction done with
  | nil => simp [dropped]
  | cons serial done ih =>
    rw [List.forall_mem_cons] at hpos
    rw [List.pairwise_cons, ← ih hpos.2, ← latest_lt_iff hpos.1]
    show (if serial ≤ latest done then 1 else 0) + dropped done = 0 ↔ _
    split <;> omega

theorem serialsOf_append (xs ys : List SubmittedCommandAllocatorUse) :
    serialsOf a (xs ++ ys) = serialsOf a xs ++ serialsOf a ys := by
  unfold serialsOf
  rw [List.filter_append, List.map_append]

theorem serialsOf_cons (use : SubmittedCommandAllocatorUse)
    (uses : List SubmittedCommandAllocatorUse) :
    serialsOf a (use :: uses) =
      if use.allocator = a then use.serial :: serialsOf a uses else serialsOf a uses := by
  by_cases h : use.allocator = a <;> simp [serialsOf, h]

theorem serialsOf_perm {xs ys : List SubmittedCommandAllocatorUse} (h : xs.Perm ys) :
    (serialsOf a xs).Perm (serialsOf a ys) :=
  (h.filter _).map _

end AllocatorDevice

open AllocatorDevice in
/-- The counter and the last serial of an allocator, given the serials in flight and those done. -/
structure CommandAllocator.Counts (st : CommandAllocator) (inFlight done : List Nat) : Prop where
  positive : ∀ n ∈ inFlight ++ done, 0 < n
  completed : st.lastCompletedSubmissionSerial = latest done
  pending : st.pendingSubmissionCount = inFlight.length + dropped done

namespace CommandAllocator

variable {st : CommandAllocator} {inFlight done : List Nat}

open AllocatorDevice

theorem Counts.init (type : CommandListType) : ({ type := type } : CommandAllocator).Counts [] [] :=
  ⟨(fun _ h => nomatch h), rfl, rfl⟩

/-- A submission adds a serial of its own. -/
theorem Counts.mark (h : st.Counts inFlight done) (hcount : st.pendingSubmissionCount + 1 < 2 ^ 32)
    (hserial : st.lastSubmissionSerial + 1 < 2 ^ 64) :
    st.markCommandListSubmitted.1.Counts (inFlight ++ [st.markCommandListSubmitted.2]) done where
  positive n hn := by
    rw [List.append_assoc, List.mem_append, List.singleton_append, List.mem_cons] at hn
    obtain hn | rfl | hn := hn
    · exact h.positive n (List.mem_append_left _ hn)
    · show 0 < (st.lastSubmissionSerial + 1) % 2 ^ 64
      omega
    · exact h.positive n (List.mem_append_right _ hn)
  completed := h.completed
  pending := by
    show (st.pendingSubmissionCount + 1) % 2 ^ 32 = _
    rw [List.length_append, List.length_singleton, Nat.mod_eq_of_lt hcount, h.pending]
    omega

/-- A completion takes one serial away, and counts where it is in order. -/
theorem Counts.complete {rest : List Nat} {serial : Nat} (h : st.Counts inFlight done)
    (hperm : inFlight.Perm (serial :: rest)) :
    (st.completeCommandListSubmission serial).Counts rest (serial :: done) := by
  have hpos : 0 < serial :=
    h.positive serial (List.mem_append_left _ (hperm.mem_iff.mpr List.mem_cons_self))
  have hlength : inFlight.length = rest.length + 1 := hperm.length_eq
  have hpending := h.pending
  have hpositive : ∀ n ∈ rest ++ serial :: done, 0 < n := fun n hn => by
    rw [List.mem_append, List.mem_cons] at hn
    obtain hn | rfl | hn := hn
    · exact h.positive n (List.mem_append_left _ (hperm.mem_iff.mpr (List.mem_cons_of_mem _ hn)))
    · exact hpos
    · exact h.positive n (List.mem_append_right _ hn)
  unfold completeCommandListSubmission
  rw [h.completed]
  split
  · next hlate =>
    -- the completion is dropped, and the counter keeps the use
    refine ⟨hpositive, ?_, ?_⟩
    · exact h.completed.trans (Nat.max_eq_right hlate.2).symm
    · rw [dropped, if_pos hlate.2]
      omega
  · next hnew =>
    have hlt : latest done < serial := by omega
    refine ⟨hpositive, (Nat.max_eq_left (Nat.le_of_lt hlt)).symm, ?_⟩
    show st.pendingSubmissionCount - 1 = _
    rw [dropped, if_neg (by omega)]
    omega

/-- The order of what is in flight does not matter. -/
theorem Counts.perm {inFlight' : List Nat} (h : st.Counts inFlight done)
    (hperm : inFlight.Perm inFlight') : st.Counts inFlight' done :=
  ⟨fun n hn => h.positive n ((hperm.append_right done).mem_iff.mpr hn), h.completed,
    hperm.length_eq ▸ h.pending⟩

/-- The allocator without the list that records. -/
def unrecorded (st : CommandAllocator) : CommandAllocator :=
  { st with recordingList := none }

theorem Counts.congr {st' : CommandAllocator} (h : st.Counts inFlight done)
    (hsame : st'.unrecorded = st.unrecorded) : st'.Counts inFlight done := by
  obtain ⟨hpositive, hcompleted, hpending⟩ := h
  cases st
  cases st'
  cases hsame
  exact ⟨hpositive, hcompleted, hpending⟩

end CommandAllocator

namespace AllocatorDevice

variable {s s' : AllocatorDevice} {done : List SubmittedCommandAllocatorUse} {a l : Nat}
  {st : CommandAllocator}

/-- Every allocator counts its uses. -/
structure Uses (s : AllocatorDevice) (done : List SubmittedCommandAllocatorUse) : Prop where
  counts : ∀ a st, s.allocators a = some st →
    st.Counts (serialsOf a s.inFlight) (serialsOf a done)
  fresh : ∀ a, s.allocators a = none → serialsOf a s.inFlight = [] ∧ serialsOf a done = []

/-- The step leaves the uses and what the allocators know of them. -/
structure SameUses (s s' : AllocatorDevice) : Prop where
  inFlight : s'.inFlight = s.inFlight
  allocators : ∀ a, (s'.allocators a).map CommandAllocator.unrecorded =
    (s.allocators a).map CommandAllocator.unrecorded

theorem SameUses.refl (s : AllocatorDevice) : SameUses s s :=
  ⟨rfl, fun _ => rfl⟩

theorem SameUses.trans {s'' : AllocatorDevice} (h : SameUses s s') (h' : SameUses s' s'') :
    SameUses s s'' :=
  ⟨h'.inFlight.trans h.inFlight, fun a => (h'.allocators a).trans (h.allocators a)⟩

theorem SameUses.setList (h : SameUses s s') (l : Nat) (list : Option GraphicsCommandList) :
    SameUses s (s'.setList l list) :=
  ⟨h.inFlight, h.allocators⟩

theorem SameUses.setAllocator {st' : CommandAllocator} (hst : s.allocators a = some st)
    (hsame : st'.unrecorded = st.unrecorded) : SameUses s (s.setAllocator a st') := by
  refine ⟨rfl, fun b => ?_⟩
  by_cases h : b = a
  · subst h
    simp [AllocatorDevice.setAllocator, hst, hsame]
  · simp [AllocatorDevice.setAllocator, h]

/-- The count of uses holds where neither the uses nor the counters change. -/
theorem Uses.congr (h : s.Uses done) (hsame : SameUses s s') : s'.Uses done := by
  refine ⟨fun a st' hst' => ?_, fun a hnone => ?_⟩
  · have hmap := hsame.allocators a
    rw [hst', Option.map_some] at hmap
    obtain ⟨st, hst, hun⟩ := Option.map_eq_some_iff.mp hmap.symm
    rw [hsame.inFlight]
    exact (h.counts a st hst).congr hun.symm
  · have hmap := hsame.allocators a
    rw [hnone, Option.map_none] at hmap
    rw [hsame.inFlight]
    exact h.fresh a (Option.map_eq_none_iff.mp hmap.symm)

theorem unrecorded_endCommandListRecording (st : CommandAllocator) (l : Nat) :
    (st.endCommandListRecording l).unrecorded = st.unrecorded := by
  unfold CommandAllocator.endCommandListRecording
  split <;> rfl

theorem unrecorded_beginCommandListRecording {st' : CommandAllocator}
    (h : st.beginCommandListRecording l = some st') : st'.unrecorded = st.unrecorded := by
  obtain ⟨-, rfl⟩ := beginCommandListRecording_eq_some h
  rfl

/-- The end of a recording uses nothing. -/
theorem sameUses_endRecording (s : AllocatorDevice) (l : Nat) (allocator : Option Nat) :
    SameUses s (s.endRecording l allocator) := by
  unfold endRecording
  split
  · exact .refl s
  · split
    · exact .refl s
    · next hst => exact .setAllocator hst (unrecorded_endCommandListRecording _ l)

/-- A new list uses nothing yet. -/
theorem sameUses_createCommandList (s : AllocatorDevice) (l : Nat) (type : CommandListType)
    (allocator : Option Nat) : SameUses s (s.createCommandList l type allocator).1 := by
  unfold createCommandList
  split
  · exact .refl s
  · split
    · exact .refl s
    · split
      · exact .refl s
      · next hst =>
        split
        · exact .refl s
        · split
          · exact .refl s
          · next hbegin =>
            exact (SameUses.setAllocator hst
                (unrecorded_beginCommandListRecording hbegin)).setList _ _

theorem sameUses_destroy (s : AllocatorDevice) (l : Nat) : SameUses s (s.destroy l) := by
  unfold destroy
  split
  · exact .refl s
  · refine SameUses.setList ?_ l none
    split
    · exact .refl s
    · exact sameUses_endRecording s l _

theorem sameUses_close (s : AllocatorDevice) (l : Nat) : SameUses s (s.close l).1 := by
  unfold close
  split
  · exact .refl s
  · split
    · exact .refl s
    · exact ((SameUses.refl s).setList l _).trans (sameUses_endRecording _ l _)

theorem sameUses_resetList (s : AllocatorDevice) (l : Nat) (allocator : Option Nat)
    (compatible : Bool) : SameUses s (s.resetList l allocator compatible).1 := by
  unfold resetList
  split
  · exact .refl s
  next list _ =>
  split
  · exact .refl s
  next a =>
  split
  · exact .refl s
  next st hst =>
  split
  · exact .refl s
  split
  · exact .refl s
  have hend := unrecorded_endCommandListRecording st l
  dsimp only
  split
  · split
    · exact .setAllocator hst hend
    · next hbegin =>
      exact (SameUses.setAllocator hst
        ((unrecorded_beginCommandListRecording hbegin).trans hend)).setList l _
  · split
    · exact .refl s
    · next hbegin =>
      exact ((SameUses.setAllocator hst (unrecorded_beginCommandListRecording hbegin)).trans
        (sameUses_endRecording _ l _)).setList l _

theorem sameUses_recordError (s : AllocatorDevice) (l : Nat) : SameUses s (s.recordError l) := by
  unfold recordError
  split
  · exact .refl s
  · exact (SameUses.refl s).setList l _

/-- A new allocator has no uses. -/
theorem Uses.createCommandAllocator (h : s.Uses done) (a : Nat) (type : CommandListType) :
    (s.createCommandAllocator a type).Uses done := by
  unfold AllocatorDevice.createCommandAllocator
  split
  · exact h
  · next hnone =>
    obtain ⟨hflight, hdone⟩ := h.fresh a (Option.not_isSome_iff_eq_none.mp hnone)
    refine ⟨fun b st hst => ?_, fun b hb => ?_⟩
    · by_cases hab : b = a
      · subst hab
        simp only [AllocatorDevice.setAllocator, Function.update_self, Option.some.injEq] at hst
        subst hst
        show CommandAllocator.Counts _ (serialsOf b s.inFlight) (serialsOf b done)
        rw [hflight, hdone]
        exact .init type
      · simp only [AllocatorDevice.setAllocator, Function.update_of_ne hab] at hst
        exact h.counts b st hst
    · by_cases hab : b = a
      · simp [AllocatorDevice.setAllocator, hab] at hb
      · simp only [AllocatorDevice.setAllocator, Function.update_of_ne hab] at hb
        exact h.fresh b hb

theorem allocators_setAllocator :
    (s.setAllocator a st).allocators = Function.update s.allocators a (some st) :=
  rfl

/-- A submission is one more use of the list's allocator. -/
theorem Uses.markSubmittedToQueue (h : s.Uses done) (list : GraphicsCommandList)
    (hroom : ∀ a st, list.allocator = some a → s.allocators a = some st →
      st.pendingSubmissionCount + 1 < 2 ^ 32 ∧ st.lastSubmissionSerial + 1 < 2 ^ 64) :
    (s.markSubmittedToQueue list).Uses done := by
  unfold AllocatorDevice.markSubmittedToQueue
  split
  · exact h
  next a halloc =>
  split
  · exact h
  next st hst =>
  obtain ⟨hcount, hserial⟩ := hroom a st halloc hst
  refine ⟨fun b st' hst' => ?_, fun b hb => ?_⟩
  · dsimp only at hst' ⊢
    rw [allocators_setAllocator] at hst'
    rw [serialsOf_append, serialsOf_cons]
    by_cases hab : b = a
    · subst hab
      rw [Function.update_self] at hst'
      cases hst'
      rw [if_pos rfl]
      exact (h.counts b st hst).mark hcount hserial
    · rw [Function.update_of_ne hab] at hst'
      rw [if_neg (fun heq => hab heq.symm)]
      exact (List.append_nil _).symm ▸ h.counts b st' hst'
  · dsimp only at hb ⊢
    rw [allocators_setAllocator] at hb
    by_cases hab : b = a
    · subst hab
      rw [Function.update_self] at hb
      cases hb
    · rw [Function.update_of_ne hab] at hb
      obtain ⟨hflight, hdone⟩ := h.fresh b hb
      rw [serialsOf_append, serialsOf_cons, if_neg (fun heq => hab heq.symm), hflight]
      exact ⟨rfl, hdone⟩

/-- A use of an allocator completes. -/
theorem Uses.complete (h : s.Uses done) {use : SubmittedCommandAllocatorUse}
    (hmem : use ∈ s.inFlight) : (s.complete use).Uses (use :: done) := by
  have hperm := List.perm_cons_erase hmem
  have hserials : ∀ b, (serialsOf b s.inFlight).Perm (serialsOf b (use :: s.inFlight.erase use)) :=
    fun b => serialsOf_perm hperm
  unfold AllocatorDevice.complete
  split
  · next hnone =>
    -- an allocator with a use in flight exists
    have hempty := (h.fresh use.allocator hnone).1
    have hcons := hserials use.allocator
    rw [hempty, serialsOf_cons, if_pos rfl] at hcons
    exact absurd hcons.length_eq (by simp)
  next st hst =>
  refine ⟨fun b st' hst' => ?_, fun b hb => ?_⟩
  · dsimp only at hst' ⊢
    rw [allocators_setAllocator] at hst'
    have hb := hserials b
    rw [serialsOf_cons] at hb ⊢
    by_cases hab : b = use.allocator
    · subst hab
      rw [Function.update_self] at hst'
      cases hst'
      rw [if_pos rfl] at hb ⊢
      exact (h.counts use.allocator st hst).complete hb
    · rw [Function.update_of_ne hab] at hst'
      rw [if_neg (fun heq => hab heq.symm)] at hb ⊢
      exact (h.counts b st' hst').perm hb
  · dsimp only at hb ⊢
    rw [allocators_setAllocator] at hb
    by_cases hab : b = use.allocator
    · subst hab
      rw [Function.update_self] at hb
      cases hb
    · rw [Function.update_of_ne hab] at hb
      obtain ⟨hflight, hdone⟩ := h.fresh b hb
      have hcons := hserials b
      rw [hflight, serialsOf_cons, if_neg (fun heq => hab heq.symm)] at hcons
      rw [serialsOf_cons, if_neg (fun heq => hab heq.symm)]
      exact ⟨List.nil_perm.mp hcons, hdone⟩

/-- A submission makes no list more or less submittable. -/
theorem submittable_markSubmittedToQueue (list : GraphicsCommandList) (type : CommandListType)
    (l : Option Nat) :
    (s.markSubmittedToQueue list).submittable type l = s.submittable type l := by
  have hlists : (s.markSubmittedToQueue list).lists = s.lists := by
    unfold AllocatorDevice.markSubmittedToQueue
    split
    · rfl
    · split <;> rfl
  unfold submittable
  rw [hlists]

/-- What a submission leaves for the lists after it. -/
theorem room_markSubmittedToQueue {list : GraphicsCommandList} {k : Nat} {b : Nat}
    (hroom : ∀ st, s.allocators b = some st → st.pendingSubmissionCount +
      (k + if list.allocator = some b then 1 else 0) < 2 ^ 32 ∧ st.lastSubmissionSerial +
        (k + if list.allocator = some b then 1 else 0) < 2 ^ 64) :
    ∀ st, (s.markSubmittedToQueue list).allocators b = some st →
      st.pendingSubmissionCount + k < 2 ^ 32 ∧ st.lastSubmissionSerial + k < 2 ^ 64 := by
  have hkept : ∀ st, s.allocators b = some st →
      st.pendingSubmissionCount + k < 2 ^ 32 ∧ st.lastSubmissionSerial + k < 2 ^ 64 := fun st hst =>
    ⟨by have := (hroom st hst).1; omega, by have := (hroom st hst).2; omega⟩
  unfold AllocatorDevice.markSubmittedToQueue
  split
  · exact hkept
  next a halloc =>
  split
  · exact hkept
  next st hst =>
  intro st' hst'
  dsimp only at hst'
  rw [allocators_setAllocator] at hst'
  by_cases hab : b = a
  · subst hab
    rw [Function.update_self] at hst'
    cases hst'
    have hb := hroom st hst
    rw [if_pos halloc] at hb
    show (st.pendingSubmissionCount + 1) % 2 ^ 32 + k < 2 ^ 32 ∧
      (st.lastSubmissionSerial + 1) % 2 ^ 64 + k < 2 ^ 64
    rw [Nat.mod_eq_of_lt (by omega), Nat.mod_eq_of_lt (by omega)]
    omega
  · rw [Function.update_of_ne hab] at hst'
    exact hkept st' hst'

/-- Every list of the call is one more use of its allocator. -/
theorem Uses.executeCommandLists (h : s.Uses done) (type : CommandListType) (ls : List (Option Nat))
    (hroom : s.Room (.executeCommandLists type ls)) :
    (s.executeCommandLists type ls).Uses done := by
  unfold AllocatorDevice.executeCommandLists
  induction ls generalizing s with
  | nil => exact h
  | cons l ls ih =>
    have hsubmits : ∀ a, s.submits type (l :: ls) a = s.submits type ls a +
        if (s.submittable type l).bind (·.allocator) = some a then 1 else 0 := fun a => by
      unfold submits
      rw [List.countP_cons]
      split <;> simp_all
    rw [List.foldl_cons]
    cases hl : s.submittable type l with
    | none =>
      refine ih h fun a st hst => ?_
      have := hroom a st hst
      rw [hsubmits, hl] at this
      simpa using this
    | some list =>
      have hlist : ∀ a st, s.allocators a = some st → st.pendingSubmissionCount +
          (s.submits type ls a + if list.allocator = some a then 1 else 0) < 2 ^ 32 ∧
            st.lastSubmissionSerial +
              (s.submits type ls a + if list.allocator = some a then 1 else 0) < 2 ^ 64 := by
        intro a st hst
        have := hroom a st hst
        rw [hsubmits, hl] at this
        exact this
      refine ih (h.markSubmittedToQueue list fun a st halloc hst => ?_) fun a st hst => ?_
      · have := hlist a st hst
        rw [if_pos halloc] at this
        omega
      · have hkept : (s.markSubmittedToQueue list).submits type ls a = s.submits type ls a := by
          unfold submits
          simp only [submittable_markSubmittedToQueue]
        rw [hkept]
        exact room_markSubmittedToQueue (hlist a) st hst

theorem Uses.step (h : s.Uses done) (call : Call) (hroom : s.Room call) :
    (s.step call).Uses done := by
  cases call with
  | createCommandAllocator a type => exact h.createCommandAllocator a type
  | createCommandList l type allocator =>
    exact h.congr (sameUses_createCommandList s l type allocator)
  | destroy l => exact h.congr (sameUses_destroy s l)
  | close l => exact h.congr (sameUses_close s l)
  | resetList l allocator compatible => exact h.congr (sameUses_resetList s l allocator compatible)
  | recordError l => exact h.congr (sameUses_recordError s l)
  | executeCommandLists type ls => exact h.executeCommandLists type ls hroom

/-! ## The statement about runs -/

/-- An allocator knows the list that is open on it and counts its uses. -/
structure Inv (s : AllocatorDevice) (done : List SubmittedCommandAllocatorUse) : Prop where
  recording : s.Recording
  uses : s.Uses done

theorem Inv.run (run : AllocatorRun s done) : s.Inv done := by
  induction run with
  | init =>
    refine ⟨fun a l => ⟨(fun h => nomatch h), ?_⟩, ⟨(fun a st h => nomatch h), fun a _ =>
        ⟨rfl, rfl⟩⟩⟩
    rintro ⟨list, h, -⟩
    cases h
  | call _ call room ih => exact ⟨ih.recording.step call, ih.uses.step call room⟩
  | complete _ use hmem ih => exact ⟨ih.recording.complete use, ih.uses.complete hmem⟩

theorem serialsOf_eq_nil_iff {uses : List SubmittedCommandAllocatorUse} :
    serialsOf a uses = [] ↔ ∀ use ∈ uses, use.allocator ≠ a := by
  unfold serialsOf
  rw [List.map_eq_nil_iff, List.filter_eq_nil_iff]
  simp only [decide_eq_true_eq]

/-- `Reset` succeeds when the allocator is idle and no completion was dropped. -/
theorem Inv.reset_eq_ok_iff (h : s.Inv done) (hst : s.allocators a = some st) :
    st.reset = .ok ↔ s.Idle a ∧ InOrder a done := by
  have hcounts := h.uses.counts a st hst
  have horder := dropped_eq_zero_iff fun n hn =>
    hcounts.positive n (List.mem_append_right _ hn)
  have hrecording : st.recordingList = none ↔ ∀ l, ¬ s.OpenOn a l := by
    rw [← recorder_of_allocator hst, Option.eq_none_iff_forall_ne_some]
    exact forall_congr' fun l => not_congr (h.recording a l)
  have hflight : (serialsOf a s.inFlight).length = 0 ↔ ∀ use ∈ s.inFlight, use.allocator ≠ a := by
    rw [List.length_eq_zero_iff, serialsOf_eq_nil_iff]
  have hidle : s.Idle a ↔ st.recordingList = none ∧ (serialsOf a s.inFlight).length = 0 := by
    rw [hrecording, hflight]
    exact ⟨fun hi => ⟨hi.closed, hi.completed⟩, fun hi => ⟨hi.1, hi.2⟩⟩
  unfold CommandAllocator.reset InOrder
  rw [← horder, hidle, hcounts.pending]
  split
  · next hbusy =>
    rw [Option.isSome_iff_ne_none] at hbusy
    refine ⟨(fun hf => nomatch hf), fun ⟨⟨hnone, hzero⟩, hdropped⟩ => ?_⟩
    exact absurd hbusy (by simp [hnone, hzero, hdropped])
  · next hfree =>
    rw [Option.isSome_iff_ne_none, not_or, not_not, not_not] at hfree
    exact ⟨fun _ => ⟨⟨hfree.1, by omega⟩, by omega⟩, fun _ => rfl⟩

/-- **Reusable when idle.** In every state of a run, `Reset` of an allocator succeeds exactly when
the allocator is idle, if and only if it is not idle or its uses completed in order. -/
theorem reset_iff_idle (run : AllocatorRun s done) (hst : s.allocators a = some st) :
    (st.reset = .ok ↔ s.Idle a) ↔ (s.Idle a → InOrder a done) := by
  rw [(Inv.run run).reset_eq_ok_iff hst]
  tauto

/-- A list that two queues execute, whose uses complete in order. -/
def submittedTwice : List Call :=
  [.createCommandAllocator 0 .direct, .createCommandList 0 .direct (some 0), .close 0,
    .executeCommandLists .direct [some 0], .executeCommandLists .direct [some 0]]

theorem run_submittedTwice : AllocatorRun (submittedTwice.foldl step {}) [] := by
  have hclosed := ((AllocatorRun.init.call (.createCommandAllocator 0 .direct) trivial).call
    (.createCommandList 0 .direct (some 0)) trivial).call (.close 0) trivial
  have honce := hclosed.call (.executeCommandLists .direct [some 0]) fun a st hst => ?_
  · refine honce.call (.executeCommandLists .direct [some 0]) fun a st hst => ?_
    cases a with
    | zero => cases hst; decide
    | succ a => cases hst
  · cases a with
    | zero => cases hst; decide
    | succ a => cases hst

theorem reset_iff_idle_submittedTwice : ∃ st,
    (((submittedTwice.foldl step {}).complete ⟨0, 1⟩).complete ⟨0, 2⟩).allocators 0 = some st ∧
      (st.reset = .ok ↔
        (((submittedTwice.foldl step {}).complete ⟨0, 1⟩).complete ⟨0, 2⟩).Idle 0) := by
  have run := (run_submittedTwice.complete ⟨0, 1⟩ (by decide)).complete ⟨0, 2⟩ (by decide)
  exact ⟨_, rfl, (reset_iff_idle run rfl).mpr fun _ => by decide⟩

/-- The queue that was given the list last is done first: the allocator is idle and cannot be reset.
-/
theorem completed_late : ∃ (s : AllocatorDevice) (done : List SubmittedCommandAllocatorUse)
    (st : CommandAllocator), AllocatorRun s done ∧ s.allocators 0 = some st ∧
      ¬ (st.reset = .ok ↔ s.Idle 0) := by
  refine ⟨_, _, _, (run_submittedTwice.complete ⟨0, 2⟩ (by decide)).complete ⟨0, 1⟩ (by decide),
    rfl, fun h => ?_⟩
  have hreset := h.mpr ⟨fun l => ?_, fun use hmem => nomatch hmem⟩
  · exact absurd hreset (by decide)
  · rintro ⟨list, hlist, hopen, -⟩
    cases l with
    | zero => cases hlist; cases hopen
    | succ l => cases hlist

end AllocatorDevice

end Dxmt
