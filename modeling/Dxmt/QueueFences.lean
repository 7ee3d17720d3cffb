import Dxmt.Fence
import Mathlib.Logic.Function.Basic

/-!
# Queues that wait for fences: `EnqueuePendingOperation`, `DrainPendingOperationsLocked`

Any number of queues with the operations that wait in them, any number of fences, and the threads
that call them. One step is a section under a `mutex_` of a fence, a turn of the loop in
`DrainPendingOperationsLocked`, or a statement outside. A thread is the list of what it has to do,
and it holds `mutex_` of a queue as long as `locked` of that queue is on its list.

The signals of all queues are executed by the GPU in the order in which they are submitted, and
their readbacks run in that order. The DXMT queue that the queues commit their chunks to is shared
and has no lock of its own; a turn of the loop is one step all the same, so what two queues do to
one chunk at once is left out, and so is the wait of `CommitCurrentChunk` for a free chunk. Fences
are not destroyed, since a callback compares bare pointers to them, and the event of a callback can
be created.

Source: `d3d12_command_queue.cpp:1523-1606, 6596-6745`, `d3d12_fence.cpp:89-254`.
-/

namespace Dxmt

namespace QueueFences

variable {R : Type}

/-- `PendingOperationType` with what belongs to it. -/
inductive Operation (R : Type) where
  | execute (records : R)
  | signal (fence value : Nat)
  | wait (fence value : Nat)

/-- The operation waits for a fence. -/
def Operation.isWait : Operation R → Bool
  | .wait _ _ => true
  | _ => false

/-- An operation in a queue, and how far its wait is. -/
structure PendingOperation (R : Type) where
  operation : Operation R
  waitCallbackArmed : Bool := false
  waitCompleted : Bool := false

/-- A wait for the value is completed. -/
def PendingOperation.complete (p : PendingOperation R) (fence value : Nat) : PendingOperation R :=
  match p.operation with
  | .wait f v => if f = fence ∧ v = value then { p with waitCompleted := true } else p
  | _ => p

/-- The callback of a wait, with the number of the call that adds it. -/
structure WaitCallback where
  id : Nat
  queue : Nat
  fence : Nat
  value : Nat
deriving DecidableEq

/-- Where the thread is that holds `mutex_` of a queue. -/
inductive Phase where
  | draining
  /-- Before the `pop_front` behind a signal that is not submitted to the GPU. -/
  | signaling
  /-- Before the lock in `AddCompletionCallback`. -/
  | adding (callback : WaitCallback)
  /-- Before `CreateEventW`. -/
  | arming (callback : WaitCallback)
  | leaving

/-- A queue, where the thread is that holds its `mutex_`, and what was enqueued and submitted. -/
structure CommandQueue (R : Type) where
  pendingOperations : List (PendingOperation R) := []
  drainingPendingOperations : Bool := false
  submittedBatches : Nat := 0
  hasWaited : Bool := false
  phase : Option Phase := none
  enqueued : List (Operation R) := []
  submitted : List (Operation R) := []

namespace CommandQueue

variable (q : CommandQueue R)

/-- `DrainPendingOperationsLocked` up to its loop. -/
def drainPendingOperationsLocked : CommandQueue R :=
  if q.drainingPendingOperations then { q with phase := some .leaving }
  else { q with drainingPendingOperations := true, phase := some .draining }

/-- `EnqueuePendingOperation`. -/
def enqueuePendingOperation (operation : Operation R) : CommandQueue R :=
  { q with
    hasWaited := q.hasWaited || operation.isWait
    pendingOperations := q.pendingOperations ++ [({ operation } : PendingOperation R)]
    enqueued := q.enqueued ++ [operation] }.drainPendingOperationsLocked

/-- What the callback of a wait does to the queue. -/
def completeWait (fence value : Nat) : CommandQueue R :=
  { q with
    pendingOperations :=
      q.pendingOperations.modifyHead (·.complete fence value) }.drainPendingOperationsLocked

/-- Takes the first operation. -/
def popFront : CommandQueue R :=
  { q with pendingOperations := q.pendingOperations.tail }

/-- The front operation is done, and the loop goes on. -/
def submit (operation : Operation R) : CommandQueue R :=
  { q.popFront with submitted := q.submitted ++ [operation] }

/-- `DrainPendingOperationsLocked` returns. -/
def stopDraining (phase : Phase) : CommandQueue R :=
  { q with drainingPendingOperations := false, phase := some phase }

end CommandQueue

/-- What a thread has to do. -/
inductive Frame (R : Type) where
  /-- `EnqueuePendingOperation` before its lock. -/
  | enqueuePendingOperation (queue : Nat) (operation : Operation R)
  /-- What is left under `mutex_` of the queue. -/
  | locked (queue : Nat)
  /-- `FenceImpl::Signal` before its lock. -/
  | signal (fence value : Nat)
  /-- `event_.signalValue`. -/
  | signalValue (fence value : Nat)
  /-- `FenceImpl::SetCompletedValue` before its lock. -/
  | setCompletedValue (fence value : Nat)
  | runOnce (callback : WaitCallback)
  /-- The callback before its lock. -/
  | callback (callback : WaitCallback)

/-- The queues, the fences and the threads inside their calls. -/
structure System (R : Type) where
  queues : Nat → CommandQueue R
  fences : Nat → FenceImpl Empty WaitCallback
  threads : List (List (Frame R)) := []
  /-- The threads of `AddCompletionCallback` in `WaitForSingleObject`. -/
  listening : List WaitCallback := []
  nextId : Nat := 0
  /-- The callbacks whose `fired` is set. -/
  fired : List WaitCallback := []
  /-- The signals that the GPU has to execute. -/
  submittedSignals : List (Nat × Nat) := []
  /-- The signals whose readback has to run. -/
  executedSignals : List (Nat × Nat) := []
  /-- The greatest value that a fence has had. -/
  reached : Nat → Nat

namespace System

variable (s : System R)

/-- Changes one queue. -/
def setQueue (queue : Nat) (q : CommandQueue R) : System R :=
  { s with queues := Function.update s.queues queue q }

/-- A fence is given another value. -/
def setFence (fence : Nat) (f : FenceImpl Empty WaitCallback) (value : Nat) : System R :=
  { s with
    fences := Function.update s.fences fence f
    reached := Function.update s.reached fence (max (s.reached fence) value) }

/-- The section in `Signal` and in `SetCompletedValue`. -/
def storeLocked (fence value : Nat) : System R :=
  s.setFence fence ((s.fences fence).storeCompletedValue value).collectCompletedEventsLocked value

/-- The callbacks that it takes out. -/
def completedCallbacks (fence value : Nat) : List (Frame R) :=
  ((s.fences fence).storeCompletedValue value).completedCallbacks.map .runOnce

/-- `event_.signalValue`, and what the GPU does for a `signalEvent`. -/
def signalEvent (fence value : Nat) : System R :=
  s.setFence fence ((s.fences fence).signalEvent value) value

/-- One turn of the loop. -/
def drain (queue : Nat) : System R × List (Frame R) :=
  let q := s.queues queue
  match q.pendingOperations with
  | [] => (s.setQueue queue (q.stopDraining .leaving), [.locked queue])
  | p :: _ =>
    match p.operation with
    | .execute records =>
      (s.setQueue queue { q.submit (.execute records) with
        submittedBatches := q.submittedBatches + 1 }, [.locked queue])
    | .signal fence value =>
      if q.submittedBatches = 0 ∧ q.hasWaited = false then
        (s.setQueue queue { q with
          phase := some .signaling
          submitted := q.submitted ++ [.signal fence value] },
          [.signal fence value, .locked queue])
      else
        ({ s.setQueue queue (q.submit (.signal fence value)) with
          submittedSignals := s.submittedSignals ++ [(fence, value)] }, [.locked queue])
    | .wait fence value =>
      if p.waitCompleted = false ∧ (s.fences fence).getCompletedValueLocked < value then
        if p.waitCallbackArmed then
          (s.setQueue queue (q.stopDraining .leaving), [.locked queue])
        else
          ({ s.setQueue queue { q.stopDraining (.adding ⟨s.nextId, queue, fence, value⟩) with
              pendingOperations := { p with waitCallbackArmed :=
                  true } :: q.pendingOperations.tail } with
            nextId := s.nextId + 1 }, [.locked queue])
      else (s.setQueue queue (q.submit (.wait fence value)), [.locked queue])

/-- What the thread that holds `mutex_` of a queue does next. -/
def runLocked (queue : Nat) : Phase → System R × List (Frame R)
  | .draining => s.drain queue
  | .signaling =>
    (s.setQueue queue { (s.queues queue).popFront with phase := some .draining }, [.locked queue])
  | .adding c =>
    let f := s.fences c.fence
    if c.value ≤ f.getCompletedValueLocked then
      (s.setQueue queue { s.queues queue with phase := some .leaving },
        [.runOnce c, .locked queue])
    else
      ({ s.setQueue queue { s.queues queue with phase := some (.arming c) } with
        fences := Function.update s.fences c.fence (f.pushCallback c.value c) }, [.locked queue])
  | .arming c =>
    ({ s.setQueue queue { s.queues queue with phase := some .leaving } with
      listening := s.listening ++ [c] }, [.locked queue])
  | .leaving => (s.setQueue queue { s.queues queue with phase := none }, [])

/-- What a thread does next, and what it has to do for that; `none` is that it waits for a lock. -/
def runFrame : Frame R → Option (System R × List (Frame R))
  | .enqueuePendingOperation queue operation =>
    match (s.queues queue).phase with
    | none =>
      some (s.setQueue queue ((s.queues queue).enqueuePendingOperation operation), [.locked queue])
    | some _ => none
  | .locked queue => (s.queues queue).phase.map (s.runLocked queue)
  | .signal fence value =>
    some (s.storeLocked fence value, .signalValue fence value :: s.completedCallbacks fence value)
  | .signalValue fence value => some (s.signalEvent fence value, [])
  | .setCompletedValue fence value =>
    some (s.storeLocked fence value, s.completedCallbacks fence value)
  | .runOnce c =>
    if c ∈ s.fired then some (s, []) else some ({ s with fired := c :: s.fired }, [.callback c])
  | .callback c =>
    match (s.queues c.queue).phase with
    | none =>
      some (s.setQueue c.queue ((s.queues c.queue).completeWait c.fence c.value), [.locked c.queue])
    | some _ => none

/-- What happens next: calls from outside, the next step of a thread, and the GPU. -/
inductive Event (R : Type) where
  | call (queue : Nat) (operation : Operation R)
  | signal (fence value : Nat)
  | thread (i : Nat)
  | execute
  | complete
  | notify (callback : WaitCallback)

/-- A new call on a thread of its own. -/
def spawn (frame : Frame R) : System R := { s with threads := s.threads ++ [[frame]] }

/-- One event, where it is possible. -/
def step : Event R → Option (System R)
  | .call queue operation => some (s.spawn (.enqueuePendingOperation queue operation))
  | .signal fence value => some (s.spawn (.signal fence value))
  | .thread i =>
    match s.threads[i]? with
    | some (frame :: rest) =>
      (s.runFrame frame).map fun (s', frames) =>
        { s' with threads := s.threads.set i (frames ++ rest) }
    | _ => none
  | .execute =>
    match s.submittedSignals with
    | (fence, value) :: rest =>
      some { s.signalEvent fence value with
        submittedSignals := rest
        executedSignals := s.executedSignals ++ [(fence, value)] }
    | [] => none
  | .complete =>
    match s.executedSignals with
    | (fence, value) :: rest =>
      some ({ s with executedSignals := rest }.spawn (.setCompletedValue fence value))
    | [] => none
  | .notify c =>
    if c ∈ s.listening ∧ c.value ≤ (s.fences c.fence).event then
      some ({ s with listening := s.listening.erase c }.spawn (.runOnce c))
    else none

/-- A run of events. -/
def run (s : System R) (events : List (Event R)) : Option (System R) := events.foldlM step s

/-- Queues without operations, and fences with their initial values. -/
def create (initial : Nat → Nat) : System R where
  queues _ := {}
  fences fence := .create (initial fence)
  reached := initial

/-- The states of any interleaving. -/
inductive Reachable (initial : Nat → Nat) : System R → Prop where
  | create : Reachable initial (create initial)
  | step {s s' : System R} {e : Event R} (h : Reachable initial s) (hs : s.step e = some s') :
      Reachable initial s'

end System

end QueueFences

end Dxmt
