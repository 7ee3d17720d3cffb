import Dxmt.QueueFences
import Mathlib.Order.Nat

/-!
# The order of operations across fences

What a queue keeps by itself is `QueueInv`. What the waits rest on is that a callback only runs when
its fence has had its value, which is `ReachedInv`. Together they give `queue_order`.
-/

namespace Dxmt

namespace QueueFences

variable {R : Type} {queue : Nat}

/-! ## One queue -/

namespace CommandQueue

/-- The operations that are not submitted. -/
def waiting (q : CommandQueue R) : List (PendingOperation R) :=
  match q.phase with
  | some .signaling => q.pendingOperations.tail
  | _ => q.pendingOperations

/-- The front operation of a queue that nobody drains. -/
def Stopped (p : PendingOperation R) : Prop :=
  p.waitCallbackArmed = true ∧ p.waitCompleted = false ∧ ∃ fence value, p.operation =
    .wait fence value

/-- What holds of a queue in every run. -/
structure QueueInv (queue : Nat) (q : CommandQueue R) : Prop where
  log : q.submitted ++ q.waiting.map (·.operation) = q.enqueued
  idle : ∀ p ∈ q.pendingOperations.tail, p.waitCallbackArmed = false ∧ p.waitCompleted = false
  draining : q.drainingPendingOperations = true ↔
    q.phase = some .draining ∨ q.phase = some .signaling
  signaling : q.phase = some .signaling → q.hasWaited = false
  waited : ∀ p ∈ q.pendingOperations, ∀ fence value, p.operation = .wait fence value →
    q.hasWaited = true
  stopped : q.drainingPendingOperations = false → ∀ p ∈ q.pendingOperations.head?, Stopped p
  adding : ∀ c, q.phase = some (.adding c) ∨ q.phase = some (.arming c) →
    c.queue = queue ∧ ∃ p ∈ q.pendingOperations.head?, p.operation = .wait c.fence c.value

variable {q : CommandQueue R}

/-- A new queue has done nothing. -/
theorem QueueInv.initial : QueueInv queue ({} : CommandQueue R) :=
  ⟨rfl, nofun, ⟨nofun, by rintro (h | h) <;> cases h⟩, nofun, nofun, nofun,
    by rintro c (h | h) <;> cases h⟩

/-- Behind the lock the loop is entered. -/
theorem QueueInv.unlocked (h : QueueInv queue q) (hphase : q.phase = none) :
    q.drainingPendingOperations = false ∧ q.waiting = q.pendingOperations := by
  constructor
  · rw [← Bool.not_eq_true, h.draining, hphase]
    rintro (h | h) <;> cases h
  · rw [waiting, hphase]

theorem drainPendingOperationsLocked_eq (h : q.drainingPendingOperations = false) :
    q.drainPendingOperationsLocked =
      { q with drainingPendingOperations := true, phase := some .draining } :=
  if_neg (by rw [h]; exact Bool.false_ne_true)

/-- The rule for the loop: it is entered, or goes on. -/
theorem QueueInv.loop (hlog : q.submitted ++ q.pendingOperations.map (·.operation) = q.enqueued)
    (hidle : ∀ p ∈ q.pendingOperations.tail, p.waitCallbackArmed = false ∧ p.waitCompleted = false)
    (hwaited : ∀ p ∈ q.pendingOperations, ∀ fence value, p.operation = .wait fence value →
      q.hasWaited = true) (hdraining : q.drainingPendingOperations = true)
    (hphase : q.phase = some .draining) : QueueInv queue q where
  log := by
    rw [waiting, hphase]
    exact hlog
  idle := hidle
  draining := ⟨fun _ => .inl hphase, fun _ => hdraining⟩
  signaling h := nomatch hphase.symm.trans h
  waited := hwaited
  stopped h := nomatch hdraining.symm.trans h
  adding c hc := by
    rw [hphase] at hc
    obtain hc | hc := hc <;> cases hc

/-- An operation waits at the end. -/
theorem QueueInv.enqueuePendingOperation (h : QueueInv queue q) (hphase : q.phase = none)
    (operation : Operation R) : QueueInv queue (q.enqueuePendingOperation operation) := by
  obtain ⟨hdraining, hwaiting⟩ := h.unlocked hphase
  have hlog := h.log
  rw [hwaiting] at hlog
  rw [CommandQueue.enqueuePendingOperation, drainPendingOperationsLocked_eq]
  swap
  · exact hdraining
  refine .loop ?_ ?_ ?_ rfl rfl
  · change q.submitted ++ (q.pendingOperations ++ [_]).map _ = q.enqueued ++ [operation]
    rw [List.map_append, ← List.append_assoc, hlog]
    rfl
  · intro p hp
    cases hpending : q.pendingOperations with
    | nil =>
      rw [hpending] at hp
      exact nomatch hp
    | cons front rest =>
      rw [hpending] at hp
      obtain hp | hp := List.mem_append.mp hp
      · exact h.idle p (by rw [hpending]; exact hp)
      · obtain rfl := List.mem_singleton.mp hp
        exact ⟨rfl, rfl⟩
  · intro p hp fence value hop
    obtain hp | hp := List.mem_append.mp hp
    · exact (congrArg (· || _) (h.waited p hp fence value hop)).trans (Bool.true_or _)
    · obtain rfl := List.mem_singleton.mp hp
      obtain rfl : operation = .wait fence value := hop
      exact Bool.or_true _

theorem complete_operation (p : PendingOperation R) (fence value : Nat) :
    (p.complete fence value).operation = p.operation := by
  unfold PendingOperation.complete
  split
  · split <;> rfl
  · rfl

theorem waitCompleted_of_complete (p : PendingOperation R) {fence value : Nat}
    (h : (p.complete fence value).waitCompleted = true) :
    p.waitCompleted = true ∨ p.operation = .wait fence value := by
  unfold PendingOperation.complete at h
  split at h
  next f v hop =>
    split at h
    next heq => exact .inr (by rw [hop, heq.1, heq.2])
    next => exact .inl h
  next => exact .inl h

theorem map_operation_complete (ps : List (PendingOperation R)) (fence value : Nat) :
    (ps.modifyHead (·.complete fence value)).map (·.operation) = ps.map (·.operation) := by
  cases ps with
  | nil => rfl
  | cons p ps => exact congrArg (· :: _) (complete_operation p fence value)

/-- A wait that is over lets its queue go on. -/
theorem QueueInv.completeWait (h : QueueInv queue q) (hphase : q.phase = none)
    (fence value : Nat) : QueueInv queue (q.completeWait fence value) := by
  obtain ⟨hdraining, hwaiting⟩ := h.unlocked hphase
  have hlog := h.log
  rw [hwaiting] at hlog
  rw [CommandQueue.completeWait, drainPendingOperationsLocked_eq]
  swap
  · exact hdraining
  refine .loop ?_ ?_ ?_ rfl rfl
  · exact (congrArg _ (map_operation_complete ..)).trans hlog
  · intro p hp
    refine h.idle p ?_
    rwa [List.tail_modifyHead] at hp
  · intro p hp f v hop
    have hmem : Operation.wait f v ∈ q.pendingOperations.map (·.operation) := by
      rw [← map_operation_complete q.pendingOperations fence value, ← hop]
      exact List.mem_map_of_mem hp
    obtain ⟨p', hp', hop'⟩ := List.mem_map.mp hmem
    exact h.waited p' hp' f v hop'

/-- The front operation is done. -/
theorem QueueInv.submit (h : QueueInv queue q) (hphase : q.phase = some .draining)
    {p : PendingOperation R} {ps : List (PendingOperation R)} (hp : q.pendingOperations = p :: ps)
    {batches : Nat} :
    QueueInv queue { q.submit p.operation with submittedBatches := batches } := by
  have hlog := h.log
  rw [waiting, hphase, hp] at hlog
  refine .loop ?_ ?_ ?_ (h.draining.mpr (.inl hphase)) hphase
  · change (q.submitted ++ [p.operation]) ++ q.pendingOperations.tail.map _ = q.enqueued
    rw [hp, List.append_assoc]
    exact hlog
  · intro p' hp'
    exact h.idle p' (List.mem_of_mem_tail hp')
  · intro p' hp'
    exact h.waited p' (List.mem_of_mem_tail hp')

/-- A signal of a queue without batches is submitted under the lock. -/
theorem QueueInv.beginSignal (h : QueueInv queue q) (hphase : q.phase = some .draining)
    {p : PendingOperation R} {ps : List (PendingOperation R)} (hp : q.pendingOperations = p :: ps)
    (hwaited : q.hasWaited = false) :
    QueueInv queue { q with phase := some .signaling, submitted := q.submitted ++
    [p.operation] } := by
  have hlog := h.log
  have hdraining := h.draining.mpr (.inl hphase)
  rw [waiting, hphase, hp] at hlog
  refine ⟨?_, h.idle, ⟨fun _ => .inr rfl, fun _ => hdraining⟩, fun _ => hwaited, h.waited,
    fun hfalse => (nomatch hdraining.symm.trans hfalse), fun c hc => ?_⟩
  · change (q.submitted ++ [p.operation]) ++ q.pendingOperations.tail.map _ = q.enqueued
    rw [hp, List.append_assoc]
    exact hlog
  · obtain hc | hc := hc <;> cases hc

/-- The signal leaves the queue, and the drain goes on. -/
theorem QueueInv.endSignal (h : QueueInv queue q) (hphase : q.phase = some .signaling) :
    QueueInv queue { q.popFront with phase := some .draining } := by
  have hlog := h.log
  rw [waiting, hphase] at hlog
  refine .loop hlog ?_ ?_ (h.draining.mpr (.inr hphase)) rfl
  · intro p hp
    exact h.idle p (List.mem_of_mem_tail hp)
  · intro p hp
    exact h.waited p (List.mem_of_mem_tail hp)

/-- The rule for the end of the loop and for what is done behind it. -/
theorem QueueInv.behind (h : QueueInv queue q) (hsignaling : q.phase ≠ some .signaling) {d : Bool}
    (hd : d = false) {phase : Option Phase} (hdraining : phase ≠ some .draining)
    (hsignaling' : phase ≠ some .signaling) (hstopped : ∀ p ∈ q.pendingOperations.head?, Stopped p)
    (hadding : ∀ c, phase = some (.adding c) ∨ phase = some (.arming c) →
      c.queue = queue ∧ ∃ p ∈ q.pendingOperations.head?, p.operation = .wait c.fence c.value) :
    QueueInv queue { q with drainingPendingOperations := d, phase } where
  log := by
    have hwaiting : q.waiting = q.pendingOperations := by
      unfold waiting
      split
      · exact absurd ‹_› hsignaling
      · rfl
    have hwaiting' : ({ q with drainingPendingOperations := d, phase } :
        CommandQueue R).waiting = q.pendingOperations := by
      unfold waiting
      split
      · exact absurd ‹_› hsignaling'
      · rfl
    rw [hwaiting', ← hwaiting]
    exact h.log
  idle := h.idle
  draining := ⟨fun h => (nomatch hd.symm.trans h), fun hphase =>
    hphase.elim (fun h => absurd h hdraining) fun h => absurd h hsignaling'⟩
  signaling hphase := absurd hphase hsignaling'
  waited := h.waited
  stopped _ := hstopped
  adding := hadding

/-- A phase that is over makes room for the next. -/
theorem QueueInv.next (h : QueueInv queue q) {phase : Option Phase} (hphase : q.phase = phase)
    (hdraining : phase ≠ some .draining) (hsignaling : phase ≠ some .signaling)
    {phase' : Option Phase} (hdraining' : phase' ≠ some .draining)
    (hsignaling' : phase' ≠ some .signaling)
    (hadding : ∀ c, phase' = some (.adding c) ∨ phase' = some (.arming c) →
      c.queue = queue ∧ ∃ p ∈ q.pendingOperations.head?, p.operation = .wait c.fence c.value) :
    QueueInv queue { q with phase := phase' } := by
  have hd : q.drainingPendingOperations = false := by
    rw [← Bool.not_eq_true, h.draining, hphase]
    exact fun hc => hc.elim hdraining hsignaling
  exact h.behind (hphase ▸ hsignaling) hd hdraining' hsignaling' (h.stopped hd) hadding

/-- The wait at the front is armed. -/
theorem QueueInv.arm (h : QueueInv queue q) (hphase : q.phase = some .draining)
    {p : PendingOperation R} {ps : List (PendingOperation R)} (hp : q.pendingOperations = p :: ps)
    {c : WaitCallback} (hc : c.queue = queue) (hop : p.operation = .wait c.fence c.value)
    (hcompleted : p.waitCompleted = false) :
    QueueInv queue { q.stopDraining (.adding c) with
      pendingOperations := { p with waitCallbackArmed := true } :: q.pendingOperations.tail } := by
  have hlog := h.log
  have hmem : p ∈ q.pendingOperations := by rw [hp]; exact List.mem_cons_self
  rw [waiting, hphase, hp] at hlog
  refine ⟨?_, h.idle, ⟨nofun, ?_⟩, nofun, ?_, ?_, ?_⟩
  · change q.submitted ++ p.operation :: q.pendingOperations.tail.map _ = q.enqueued
    rw [hp]
    exact hlog
  · rintro (hc | hc) <;> cases hc
  · intro p' hp' fence value hop'
    obtain rfl | hp' := List.mem_cons.mp hp'
    · exact h.waited p hmem fence value hop'
    · exact h.waited p' (List.mem_of_mem_tail hp') fence value hop'
  · intro _ p' hp'
    obtain rfl := Option.some.inj hp'
    exact ⟨rfl, hcompleted, c.fence, c.value, hop⟩
  · rintro c' (hc' | hc')
    · obtain rfl : c = c' := by cases hc'; rfl
      exact ⟨hc, _, rfl, hop⟩
    · cases hc'

end CommandQueue

/-! ## What a step can do -/

open Dxmt.QueueFences.CommandQueue

namespace System

variable {s s' : System R} {frame : Frame R} {todo : List (Frame R)}

/-- What a thread can do next, and what it has to do for that. -/
inductive FrameStep (s : System R) : Frame R → System R → List (Frame R) → Prop where
  | enqueue {queue : Nat} {operation} (hphase : (s.queues queue).phase = none) :
    FrameStep s (.enqueuePendingOperation queue operation)
      (s.setQueue queue ((s.queues queue).enqueuePendingOperation operation)) [.locked queue]
  | empty {queue : Nat} (hphase : (s.queues queue).phase = some .draining)
      (hp : (s.queues queue).pendingOperations = []) :
    FrameStep s (.locked queue)
      (s.setQueue queue ((s.queues queue).stopDraining .leaving)) [.locked queue]
  | execute {queue : Nat} {p ps records} (hphase : (s.queues queue).phase = some .draining)
      (hp : (s.queues queue).pendingOperations = p :: ps) (hop : p.operation = .execute records) :
    FrameStep s (.locked queue) (s.setQueue queue { (s.queues queue).submit p.operation with
      submittedBatches := (s.queues queue).submittedBatches + 1 }) [.locked queue]
  | signalNow {queue : Nat} {p ps fence value} (hphase : (s.queues queue).phase = some .draining)
      (hp : (s.queues queue).pendingOperations = p :: ps) (hop : p.operation = .signal fence value)
      (hwaited : (s.queues queue).hasWaited = false) :
    FrameStep s (.locked queue) (s.setQueue queue { s.queues queue with
      phase := some .signaling
      submitted := (s.queues queue).submitted ++ [p.operation] })
      [.signal fence value, .locked queue]
  | submitSignal {queue : Nat} {p ps fence value} (hphase : (s.queues queue).phase = some .draining)
      (hp : (s.queues queue).pendingOperations = p :: ps)
      (hop : p.operation = .signal fence value) :
    FrameStep s (.locked queue) { s.setQueue queue ((s.queues queue).submit p.operation) with
      submittedSignals := s.submittedSignals ++ [(fence, value)] } [.locked queue]
  | stop {queue : Nat} {p ps fence value} (hphase : (s.queues queue).phase = some .draining)
      (hp : (s.queues queue).pendingOperations = p :: ps) (hop : p.operation = .wait fence value)
      (hcompleted : p.waitCompleted = false) (harmed : p.waitCallbackArmed = true) :
    FrameStep s (.locked queue)
      (s.setQueue queue ((s.queues queue).stopDraining .leaving)) [.locked queue]
  | arm {queue : Nat} {p ps fence value} (hphase : (s.queues queue).phase = some .draining)
      (hp : (s.queues queue).pendingOperations = p :: ps) (hop : p.operation = .wait fence value)
      (hcompleted : p.waitCompleted = false) (harmed : p.waitCallbackArmed = false) :
    FrameStep s (.locked queue) { s.setQueue queue
      { (s.queues queue).stopDraining (.adding ⟨s.nextId, queue, fence, value⟩) with
        pendingOperations :=
          { p with waitCallbackArmed := true } :: (s.queues queue).pendingOperations.tail } with
      nextId := s.nextId + 1 } [.locked queue]
  | pass {queue : Nat} {p ps fence value} (hphase : (s.queues queue).phase = some .draining)
      (hp : (s.queues queue).pendingOperations = p :: ps) (hop : p.operation = .wait fence value)
      (hpass : p.waitCompleted = true ∨ value ≤ (s.fences fence).getCompletedValueLocked) :
    FrameStep s (.locked queue)
      (s.setQueue queue ((s.queues queue).submit p.operation)) [.locked queue]
  | signaled {queue : Nat} (hphase : (s.queues queue).phase = some .signaling) :
    FrameStep s (.locked queue) (s.setQueue queue
      { (s.queues queue).popFront with phase := some .draining }) [.locked queue]
  | runNow {queue : Nat} {c} (hphase : (s.queues queue).phase = some (.adding c))
      (hreached : c.value ≤ (s.fences c.fence).getCompletedValueLocked) :
    FrameStep s (.locked queue) (s.setQueue queue { s.queues queue with phase := some .leaving })
      [.runOnce c, .locked queue]
  | add {queue : Nat} {c} (hphase : (s.queues queue).phase = some (.adding c))
      (hreached : (s.fences c.fence).getCompletedValueLocked < c.value) :
    FrameStep s (.locked queue)
      { s.setQueue queue { s.queues queue with phase := some (.arming c) } with
        fences := Function.update s.fences c.fence
          ((s.fences c.fence).pushCallback c.value c) } [.locked queue]
  | listen {queue : Nat} {c} (hphase : (s.queues queue).phase = some (.arming c)) :
    FrameStep s (.locked queue)
      { s.setQueue queue { s.queues queue with phase := some .leaving } with
        listening := s.listening ++ [c] } [.locked queue]
  | leave {queue : Nat} (hphase : (s.queues queue).phase = some .leaving) :
    FrameStep s (.locked queue) (s.setQueue queue { s.queues queue with phase := none }) []
  | signal {fence value} :
    FrameStep s (.signal fence value) (s.storeLocked fence value)
      (.signalValue fence value :: s.completedCallbacks fence value)
  | signalValue {fence value} :
    FrameStep s (.signalValue fence value) (s.signalEvent fence value) []
  | setCompletedValue {fence value} :
    FrameStep s (.setCompletedValue fence value) (s.storeLocked fence value)
      (s.completedCallbacks fence value)
  | ranOnce {c} (hfired : c ∈ s.fired) : FrameStep s (.runOnce c) s []
  | runOnce {c} (hfired : c ∉ s.fired) :
    FrameStep s (.runOnce c) { s with fired := c :: s.fired } [.callback c]
  | callback {c} (hphase : (s.queues c.queue).phase = none) :
    FrameStep s (.callback c)
      (s.setQueue c.queue ((s.queues c.queue).completeWait c.fence c.value)) [.locked c.queue]

/-- What a turn of the drain loop can do. -/
theorem drain_cases (hphase : (s.queues queue).phase = some .draining) :
    FrameStep s (.locked queue) (s.drain queue).1 (s.drain queue).2 := by
  unfold drain
  dsimp only
  split
  next hp => exact .empty hphase hp
  next p ps hp =>
    split
    next records hop => exact hop ▸ .execute hphase hp hop
    next fence value hop =>
      split
      next hnow => exact hop ▸ .signalNow hphase hp hop hnow.2
      next => exact hop ▸ .submitSignal hphase hp hop
    next fence value hop =>
      split
      next hwaits =>
        split
        next harmed => exact .stop hphase hp hop hwaits.1 harmed
        next harmed => exact .arm hphase hp hop hwaits.1 (Bool.not_eq_true _ ▸ harmed)
      next hpass =>
        refine hop ▸ .pass hphase hp hop ?_
        rw [not_and_or, Bool.not_eq_false, not_lt] at hpass
        exact hpass

/-- What a step of a thread can do. -/
theorem runFrame_cases (h : s.runFrame frame = some (s', todo)) : FrameStep s frame s' todo := by
  cases frame with
  | enqueuePendingOperation queue operation =>
    unfold runFrame at h
    dsimp only at h
    split at h
    next hphase =>
      obtain ⟨rfl, rfl⟩ := Prod.mk.inj (Option.some.inj h)
      exact .enqueue hphase
    next => cases h
  | locked queue =>
    obtain ⟨phase, hphase, h⟩ := Option.map_eq_some_iff.mp h
    cases phase with
    | draining =>
      have hdrain : s.drain queue = (s', todo) := h
      have hstep := drain_cases hphase
      rw [hdrain] at hstep
      exact hstep
    | signaling =>
      obtain ⟨rfl, rfl⟩ := Prod.mk.inj h
      exact .signaled hphase
    | adding c =>
      rw [runLocked] at h
      dsimp only at h
      split at h
      next hreached =>
        obtain ⟨rfl, rfl⟩ := Prod.mk.inj h
        exact .runNow hphase hreached
      next hreached =>
        obtain ⟨rfl, rfl⟩ := Prod.mk.inj h
        exact .add hphase (not_le.mp hreached)
    | arming c =>
      obtain ⟨rfl, rfl⟩ := Prod.mk.inj h
      exact .listen hphase
    | leaving =>
      obtain ⟨rfl, rfl⟩ := Prod.mk.inj h
      exact .leave hphase
  | signal fence value =>
    obtain ⟨rfl, rfl⟩ := Prod.mk.inj (Option.some.inj h)
    exact .signal
  | signalValue fence value =>
    obtain ⟨rfl, rfl⟩ := Prod.mk.inj (Option.some.inj h)
    exact .signalValue
  | setCompletedValue fence value =>
    obtain ⟨rfl, rfl⟩ := Prod.mk.inj (Option.some.inj h)
    exact .setCompletedValue
  | runOnce c =>
    unfold runFrame at h
    dsimp only at h
    split at h
    next hfired =>
      obtain ⟨rfl, rfl⟩ := Prod.mk.inj (Option.some.inj h)
      exact .ranOnce hfired
    next hfired =>
      obtain ⟨rfl, rfl⟩ := Prod.mk.inj (Option.some.inj h)
      exact .runOnce hfired
  | callback c =>
    unfold runFrame at h
    dsimp only at h
    split at h
    next hphase =>
      obtain ⟨rfl, rfl⟩ := Prod.mk.inj (Option.some.inj h)
      exact .callback hphase
    next => cases h

/-- What can happen to the system. -/
inductive StepCases (s : System R) : System R → Prop where
  | spawn {frame : Frame R} (h : ∀ c, frame ≠ .runOnce c ∧ frame ≠ .callback c)
      (hlocked : ∀ queue, frame ≠ .locked queue) :
    StepCases s (s.spawn frame)
  | thread {i : Nat} {frame : Frame R} {rest s₁} {todo : List (Frame R)}
      (hi : s.threads[i]? = some (frame :: rest))
      (h : FrameStep s frame s₁ todo) :
    StepCases s { s₁ with threads := s.threads.set i (todo ++ rest) }
  | execute {fence value rest} (h : s.submittedSignals = (fence, value) :: rest) :
    StepCases s { s.signalEvent fence value with
      submittedSignals := rest
      executedSignals := s.executedSignals ++ [(fence, value)] }
  | complete {fence value rest} (h : s.executedSignals = (fence, value) :: rest) :
    StepCases s ({ s with executedSignals := rest }.spawn (.setCompletedValue fence value))
  | notify {c} (hc : c ∈ s.listening) (h : c.value ≤ (s.fences c.fence).event) :
    StepCases s ({ s with listening := s.listening.erase c }.spawn (.runOnce c))

/-- What an event can do. -/
theorem step_cases {e : Event R} (hs : s.step e = some s') : StepCases s s' := by
  cases e with
  | call queue operation =>
    obtain rfl := Option.some.inj hs
    exact .spawn (fun _ => ⟨nofun, nofun⟩) nofun
  | signal fence value =>
    obtain rfl := Option.some.inj hs
    exact .spawn (fun _ => ⟨nofun, nofun⟩) nofun
  | thread i =>
    unfold step at hs
    dsimp only at hs
    split at hs
    next frame rest hi =>
      obtain ⟨⟨s₁, todo⟩, hrun, rfl⟩ := Option.map_eq_some_iff.mp hs
      exact .thread hi (runFrame_cases hrun)
    next => cases hs
  | execute =>
    unfold step at hs
    dsimp only at hs
    split at hs
    next fence value rest hsignals =>
      obtain rfl := Option.some.inj hs
      exact .execute hsignals
    next => cases hs
  | complete =>
    unfold step at hs
    dsimp only at hs
    split at hs
    next fence value rest hsignals =>
      obtain rfl := Option.some.inj hs
      exact .complete hsignals
    next => cases hs
  | notify c =>
    unfold step at hs
    dsimp only at hs
    split at hs
    next hc =>
      obtain rfl := Option.some.inj hs
      exact .notify hc.1 hc.2
    next => cases hs

/-! ## The queues -/

theorem forall_setQueue {P : Nat → CommandQueue R → Prop} (h : ∀ i, P i (s.queues i))
    {q : CommandQueue R} (hq : P queue q) : ∀ i, P i ((s.setQueue queue q).queues i) := by
  intro i
  change P i (Function.update s.queues queue q i)
  rw [Function.update_apply]
  split
  next hi => exact hi ▸ hq
  next => exact h i

/-- A step of a thread keeps every queue in order. -/
theorem FrameStep.queueInv (hs : FrameStep s frame s' todo) (h : ∀ i, QueueInv i (s.queues i)) :
    ∀ i, QueueInv i (s'.queues i) := by
  cases hs with
  | enqueue hphase => exact forall_setQueue h ((h _).enqueuePendingOperation hphase _)
  | empty hphase hp =>
    refine forall_setQueue h ((h _).behind (hphase ▸ nofun) rfl nofun nofun ?_ ?_)
    · rw [hp]
      exact nofun
    · rintro c (hc | hc) <;> cases hc
  | execute hphase hp hop => exact forall_setQueue h ((h _).submit hphase hp)
  | signalNow hphase hp hop hwaited => exact forall_setQueue h ((h _).beginSignal hphase hp hwaited)
  | submitSignal hphase hp hop => exact forall_setQueue h ((h _).submit hphase hp)
  | stop hphase hp hop hcompleted harmed =>
    refine forall_setQueue h ((h _).behind (hphase ▸ nofun) rfl nofun nofun ?_ ?_)
    · rw [hp]
      intro p' hp'
      obtain rfl := Option.some.inj hp'
      exact ⟨harmed, hcompleted, _, _, hop⟩
    · rintro c (hc | hc) <;> cases hc
  | arm hphase hp hop hcompleted harmed =>
    exact forall_setQueue h ((h _).arm hphase hp rfl hop hcompleted)
  | pass hphase hp hop hpass => exact forall_setQueue h ((h _).submit hphase hp)
  | signaled hphase => exact forall_setQueue h ((h _).endSignal hphase)
  | runNow hphase hreached =>
    refine forall_setQueue h ((h _).next hphase nofun nofun nofun nofun ?_)
    rintro c (hc | hc) <;> cases hc
  | @add queue c hphase hreached =>
    refine forall_setQueue h ((h _).next hphase nofun nofun nofun nofun ?_)
    rintro c' (hc' | hc')
    · cases hc'
    · obtain rfl : c = c' := by cases hc'; rfl
      exact (h queue).adding c (.inl hphase)
  | listen hphase =>
    refine forall_setQueue h ((h _).next hphase nofun nofun nofun nofun ?_)
    rintro c (hc | hc) <;> cases hc
  | leave hphase =>
    refine forall_setQueue h ((h _).next hphase nofun nofun nofun nofun ?_)
    rintro c (hc | hc) <;> cases hc
  | callback hphase => exact forall_setQueue h ((h _).completeWait hphase _ _)
  | signal => exact h
  | signalValue => exact h
  | setCompletedValue => exact h
  | ranOnce => exact h
  | runOnce => exact h

/-- An event keeps every queue in order. -/
theorem StepCases.queueInv (hs : StepCases s s') (h : ∀ i, QueueInv i (s.queues i)) :
    ∀ i, QueueInv i (s'.queues i) := by
  cases hs with
  | spawn => exact h
  | thread _ hframe => exact hframe.queueInv h
  | execute => exact h
  | complete => exact h
  | notify => exact h

/-! ## What the waits rest on -/

/-- All that the threads have to do. -/
def frames (s : System R) : List (Frame R) := s.threads.flatten

/-- A callback is on its way to its queue. -/
def Runs (todo : List (Frame R)) (c : WaitCallback) : Prop :=
  .runOnce c ∈ todo ∨ .callback c ∈ todo

/-- The queue passes no wait whose fence has not had its value. -/
structure Passes (reached : Nat → Nat) (q : CommandQueue R) : Prop where
  completed : ∀ p ∈ q.pendingOperations, p.waitCompleted = true →
    ∀ fence value, p.operation = .wait fence value → value ≤ reached fence
  submitted : ∀ fence value, .wait fence value ∈ q.submitted → value ≤ reached fence

/-- What holds in every run of the highest value that a fence has had. -/
structure ReachedInv (s : System R) : Prop where
  le : ∀ f, (s.fences f).completedValue ≤ s.reached f ∧ (s.fences f).event ≤ s.reached f
  target : ∀ f, ∀ p ∈ (s.fences f).pendingCallbacks, p.target.fence = f ∧ p.target.value = p.value
  due : ∀ c, Runs s.frames c → c.value ≤ s.reached c.fence
  passes : ∀ i, Passes s.reached (s.queues i)

theorem ReachedInv.create (initial : Nat → Nat) :
    ReachedInv (System.create initial : System R) where
  le _ := ⟨le_rfl, le_rfl⟩
  target _ := nofun
  due _ h := h.elim nofun nofun
  passes _ := ⟨nofun, nofun⟩

theorem ReachedInv.getCompletedValueLocked_le (h : ReachedInv s) (fence : Nat) :
    (s.fences fence).getCompletedValueLocked ≤ s.reached fence := by
  unfold FenceImpl.getCompletedValueLocked
  split
  · exact (h.le fence).1
  · exact (h.le fence).2

theorem ReachedInv.setQueue (h : ReachedInv s) {q : CommandQueue R} (hq : Passes s.reached q) :
    ReachedInv (s.setQueue queue q) :=
  ⟨h.le, h.target, h.due, forall_setQueue h.passes hq⟩

/-- A fence that moves on takes the highest value along. -/
theorem ReachedInv.setFence (h : ReachedInv s) {fence value : Nat}
    {f : FenceImpl Empty WaitCallback}
    (hle : f.completedValue ≤ max (s.reached fence) value ∧ f.event ≤ max (s.reached fence) value)
    (hcallbacks : f.pendingCallbacks ⊆ (s.fences fence).pendingCallbacks) :
    ReachedInv (s.setFence fence f value) := by
  have hmono : ∀ i, s.reached i ≤ (s.setFence fence f value).reached i := by
    intro i
    change _ ≤ Function.update s.reached fence _ i
    rw [Function.update_apply]
    split
    next hi => exact hi ▸ le_max_left ..
    next => exact le_rfl
  refine ⟨fun i => ?_, fun i p hp => ?_, fun c hc => (h.due c hc).trans (hmono _),
    fun i => ⟨fun p hp hc f v hop => ?_, fun f v hop => ?_⟩⟩
  · change (Function.update s.fences fence f i).completedValue ≤
      Function.update s.reached fence _ i ∧
      (Function.update s.fences fence f i).event ≤ Function.update s.reached fence _ i
    rw [Function.update_apply, Function.update_apply]
    split
    next => exact hle
    next => exact h.le i
  · change p ∈ (Function.update s.fences fence f i).pendingCallbacks at hp
    rw [Function.update_apply] at hp
    split at hp
    next hi => exact h.target i p (hi ▸ hcallbacks hp)
    next => exact h.target i p hp
  · exact ((h.passes i).completed p hp hc f v hop).trans (hmono f)
  · exact ((h.passes i).submitted f v hop).trans (hmono f)

/-- What is submitted has waited for its fences. -/
theorem Passes.submit {reached : Nat → Nat} {q : CommandQueue R} (h : Passes reached q)
    {operation : Operation R}
    (hwait : ∀ fence value, operation = .wait fence value → value ≤ reached fence)
    {batches : Nat} : Passes reached { q.submit operation with submittedBatches := batches } where
  completed p hp := h.completed p (List.mem_of_mem_tail hp)
  submitted fence value hop := by
    obtain hop | hop := List.mem_append.mp hop
    · exact h.submitted fence value hop
    · exact hwait fence value (List.mem_singleton.mp hop).symm

theorem Passes.drain {reached : Nat → Nat} {q : CommandQueue R} (h : Passes reached q) :
    Passes reached q.drainPendingOperationsLocked := by
  unfold drainPendingOperationsLocked
  split <;> exact ⟨h.completed, h.submitted⟩

theorem Passes.enqueue {reached : Nat → Nat} {q : CommandQueue R} (h : Passes reached q)
    (operation : Operation R) : Passes reached (q.enqueuePendingOperation operation) := by
  refine Passes.drain ⟨fun p hp hc => ?_, h.submitted⟩
  obtain hp | hp := List.mem_append.mp hp
  · exact h.completed p hp hc
  · obtain rfl := List.mem_singleton.mp hp
    cases hc

/-- A callback that is on its way may complete the wait. -/
theorem Passes.completeWait {reached : Nat → Nat} {q : CommandQueue R} (h : Passes reached q)
    {fence value : Nat} (hle : value ≤ reached fence) :
    Passes reached (q.completeWait fence value) := by
  refine Passes.drain ⟨fun p hp hc f v hop => ?_, h.submitted⟩
  cases hpending : q.pendingOperations with
  | nil =>
    rw [hpending] at hp
    exact nomatch hp
  | cons front rest =>
    have hmem : ∀ p ∈ front :: rest, p ∈ q.pendingOperations := fun p hp => hpending ▸ hp
    rw [hpending] at hp
    obtain rfl | hp := List.mem_cons.mp hp
    · have hop' : front.operation = .wait f v :=
        (complete_operation front fence value).symm.trans hop
      obtain hc | hc := waitCompleted_of_complete front hc
      · exact h.completed front (hmem _ List.mem_cons_self) hc f v hop'
      · cases hop'.symm.trans hc
        exact hle
    · exact h.completed p (hmem p (List.mem_cons_of_mem _ hp)) hc f v hop

/-- A wait that is armed is not completed. -/
theorem Passes.arm {reached : Nat → Nat} {q : CommandQueue R} (h : Passes reached q)
    {p : PendingOperation R} (hcompleted : p.waitCompleted = false) (phase : Phase) :
    Passes reached { q.stopDraining phase with
      pendingOperations := { p with waitCallbackArmed := true } :: q.pendingOperations.tail } := by
  refine ⟨fun p' hp' hc' => ?_, h.submitted⟩
  obtain rfl | hp' := List.mem_cons.mp hp'
  · cases hcompleted.symm.trans hc'
  · exact h.completed p' (List.mem_of_mem_tail hp') hc'

theorem not_runs_locked (queue : Nat) (c : WaitCallback) :
    ¬Runs ([.locked queue] : List (Frame R)) c := by
  rintro (h | h) <;> cases List.mem_singleton.mp h

/-- What a store collects has its value. -/
theorem ReachedInv.collected (h : ReachedInv s) {fence value : Nat} {c : WaitCallback}
    (hc : Runs (s.completedCallbacks fence value) c) : c.fence = fence ∧ c.value ≤ value := by
  have hmem : .runOnce c ∈ s.completedCallbacks fence value := by
    refine hc.resolve_right fun hc => ?_
    obtain ⟨_, -, hc⟩ := List.mem_map.mp hc
    cases hc
  obtain ⟨c', hc', hcc⟩ := List.mem_map.mp hmem
  obtain rfl : c' = c := by cases hcc; rfl
  obtain ⟨p, hp, rfl⟩ := List.mem_map.mp hc'
  obtain ⟨hp, hle⟩ := List.mem_filter.mp hp
  obtain ⟨hfence, hvalue⟩ := h.target fence p hp
  refine ⟨hfence, hvalue ▸ ?_⟩
  exact not_lt.mp (of_decide_eq_true hle)

theorem ReachedInv.storeLocked (h : ReachedInv s) (fence value : Nat) :
    ReachedInv (s.storeLocked fence value) :=
  h.setFence ⟨le_max_right .., ((h.le fence).2).trans (le_max_left ..)⟩
    fun _ hp => List.mem_of_mem_filter hp

/-- A callback that is taken is due. -/
theorem ReachedInv.collected_due (h : ReachedInv s) {fence value : Nat} {c : WaitCallback}
    (hc : Runs (s.completedCallbacks fence value) c) :
    c.value ≤ (s.storeLocked fence value).reached c.fence := by
  obtain ⟨rfl, hle⟩ := h.collected hc
  change c.value ≤ Function.update s.reached c.fence (max (s.reached c.fence) value) c.fence
  rw [Function.update_self]
  exact hle.trans (le_max_right ..)

/-- A fence is given a callback for itself. -/
theorem ReachedInv.pushCallback (h : ReachedInv s) (c : WaitCallback) :
    ReachedInv { s with
      fences := Function.update s.fences c.fence
        ((s.fences c.fence).pushCallback c.value c) } := by
  refine ⟨fun f => ?_, fun f p hp => ?_, h.due, h.passes⟩
  · change (Function.update s.fences c.fence _ f).completedValue ≤ s.reached f ∧
      (Function.update s.fences c.fence _ f).event ≤ s.reached f
    rw [Function.update_apply]
    split
    next hf => exact hf ▸ h.le c.fence
    next => exact h.le f
  · change p ∈ (Function.update s.fences c.fence _ f).pendingCallbacks at hp
    rw [Function.update_apply] at hp
    split at hp
    next hf =>
      obtain hp | hp := List.mem_append.mp hp
      · exact hf ▸ h.target c.fence p hp
      · obtain rfl := List.mem_singleton.mp hp
        exact ⟨hf.symm, rfl⟩
    next => exact h.target f p hp

/-- A step of a thread submits no wait before its value. -/
theorem FrameStep.reachedInv (hs : FrameStep s frame s' todo) (h : ReachedInv s)
    (hframe : frame ∈ s.frames) :
    ReachedInv s' ∧ ∀ c, Runs todo c → c.value ≤ s'.reached c.fence := by
  have hlocked : ∀ queue c, Runs ([.locked queue] : List (Frame R)) c →
      c.value ≤ s'.reached c.fence := fun queue c hc => absurd hc (not_runs_locked queue c)
  cases hs with
  | enqueue hphase => exact ⟨h.setQueue ((h.passes _).enqueue _), hlocked _⟩
  | @empty queue hphase hp =>
    exact ⟨h.setQueue ⟨(h.passes queue).completed, (h.passes queue).submitted⟩, hlocked _⟩
  | execute hphase hp hop =>
    refine ⟨h.setQueue ((h.passes _).submit fun f v hop' => ?_), hlocked _⟩
    cases hop.symm.trans hop'
  | @signalNow queue p ps fence value hphase hp hop hwaited =>
    refine ⟨h.setQueue ⟨(h.passes queue).completed, fun f v hop' => ?_⟩, ?_⟩
    · obtain hop' | hop' := List.mem_append.mp hop'
      · exact (h.passes queue).submitted f v hop'
      · cases hop.symm.trans (List.mem_singleton.mp hop').symm
    · rintro c (hc | hc) <;> simp only [List.mem_cons, List.not_mem_nil, reduceCtorEq, or_self]
        at hc
  | @submitSignal queue p ps fence value hphase hp hop =>
    have hset : ReachedInv (s.setQueue queue ((s.queues queue).submit p.operation)) :=
      h.setQueue ((h.passes queue).submit fun f v hop' => by cases hop.symm.trans hop')
    exact ⟨⟨hset.le, hset.target, hset.due, hset.passes⟩, hlocked _⟩
  | @stop queue p ps fence value hphase hp hop hcompleted harmed =>
    exact ⟨h.setQueue ⟨(h.passes queue).completed, (h.passes queue).submitted⟩, hlocked _⟩
  | @arm queue p ps fence value hphase hp hop hcompleted harmed =>
    have hpasses := (h.passes queue).arm hcompleted (.adding ⟨s.nextId, queue, fence, value⟩)
    exact ⟨⟨h.le, h.target, h.due, (h.setQueue hpasses).passes⟩, hlocked _⟩
  | @pass queue p ps fence value hphase hp hop hpass =>
    have hmem : p ∈ (s.queues queue).pendingOperations := by
      rw [hp]
      exact List.mem_cons_self
    refine ⟨h.setQueue ((h.passes queue).submit fun f v hop' => ?_), hlocked _⟩
    obtain ⟨rfl, rfl⟩ : fence = f ∧ value = v := by
      cases hop.symm.trans hop'
      exact ⟨rfl, rfl⟩
    obtain hcompleted | hreached := hpass
    · exact (h.passes queue).completed p hmem hcompleted fence value hop
    · exact hreached.trans (h.getCompletedValueLocked_le fence)
  | @signaled queue hphase =>
    exact ⟨h.setQueue ⟨fun p hp => (h.passes queue).completed p (List.mem_of_mem_tail hp),
      (h.passes queue).submitted⟩, hlocked _⟩
  | @runNow queue c hphase hreached =>
    refine ⟨h.setQueue ⟨(h.passes queue).completed, (h.passes queue).submitted⟩, ?_⟩
    rintro c' (hc | hc) <;> simp only [List.mem_cons, List.not_mem_nil, reduceCtorEq, or_false,
      Frame.runOnce.injEq] at hc
    subst hc
    exact hreached.trans (h.getCompletedValueLocked_le _)
  | @add queue c hphase hreached =>
    have hset : ReachedInv (s.setQueue queue { s.queues queue with phase := some (.arming c) }) :=
      h.setQueue ⟨(h.passes queue).completed, (h.passes queue).submitted⟩
    exact ⟨hset.pushCallback c, hlocked _⟩
  | @listen queue c hphase =>
    have hset : ReachedInv (s.setQueue queue { s.queues queue with phase := some .leaving }) :=
      h.setQueue ⟨(h.passes queue).completed, (h.passes queue).submitted⟩
    exact ⟨⟨hset.le, hset.target, hset.due, hset.passes⟩, hlocked _⟩
  | @leave queue hphase =>
    refine ⟨h.setQueue ⟨(h.passes queue).completed, (h.passes queue).submitted⟩, ?_⟩
    rintro c (hc | hc) <;> cases hc
  | @signal fence value =>
    refine ⟨h.storeLocked fence value, fun c hc => ?_⟩
    suffices hcollected : Runs (s.completedCallbacks fence value) c from h.collected_due hcollected
    obtain hc | hc := hc
    · exact .inl ((List.mem_cons.mp hc).resolve_left nofun)
    · exact .inr ((List.mem_cons.mp hc).resolve_left nofun)
  | @signalValue fence value =>
    refine ⟨h.setFence ⟨((h.le fence).1).trans (le_max_left ..), le_max_right ..⟩
      (List.Subset.refl _), ?_⟩
    rintro c (hc | hc) <;> cases hc
  | @setCompletedValue fence value =>
    exact ⟨h.storeLocked fence value, fun c hc => h.collected_due hc⟩
  | ranOnce hfired =>
    refine ⟨h, ?_⟩
    rintro c (hc | hc) <;> cases hc
  | @runOnce c hfired =>
    refine ⟨⟨h.le, h.target, h.due, h.passes⟩, ?_⟩
    rintro c' (hc | hc) <;> simp only [List.mem_cons, List.not_mem_nil, reduceCtorEq, or_false,
      Frame.callback.injEq] at hc
    subst hc
    exact h.due c' (.inl hframe)
  | @callback c hphase =>
    exact ⟨h.setQueue ((h.passes c.queue).completeWait (h.due c (.inr hframe))), hlocked _⟩

/-! ## The threads -/

section Threads

variable {i : Nat} {rest : List (Frame R)} {x : Frame R}

theorem mem_flatten_set {threads : List (List (Frame R))} {t : List (Frame R)}
    (hx : x ∈ (threads.set i t).flatten) : x ∈ t ∨ x ∈ threads.flatten := by
  obtain ⟨u, hu, hxu⟩ := List.mem_flatten.mp hx
  obtain hu | rfl := List.mem_or_eq_of_mem_set hu
  · exact .inr (List.mem_flatten.mpr ⟨u, hu, hxu⟩)
  · exact .inl hxu

theorem mem_flatten_set_new {threads : List (List (Frame R))} {t t' : List (Frame R)}
    (hi : threads[i]? = some t) (hx : x ∈ t') : x ∈ (threads.set i t').flatten :=
  List.mem_flatten.mpr ⟨t', List.mem_set (List.getElem?_eq_some_iff.mp hi).1 t', hx⟩

theorem mem_flatten_set_old {threads : List (List (Frame R))} {t : List (Frame R)}
    (t' : List (Frame R)) (hi : threads[i]? = some t) (hx : x ∈ threads.flatten) :
    x ∈ t ∨ x ∈ (threads.set i t').flatten := by
  obtain ⟨u, hu, hxu⟩ := List.mem_flatten.mp hx
  by_cases hut : u = t
  · exact .inl (hut ▸ hxu)
  · exact .inr (List.mem_flatten.mpr ⟨u, mem_of_mem_flatMap_set hi hu hut, hxu⟩)

theorem mem_frames (hi : s.threads[i]? = some (frame :: rest)) (hx : x ∈ frame :: rest) :
    x ∈ s.frames :=
  List.mem_flatten.mpr ⟨_, List.mem_of_getElem? hi, hx⟩

/-- What there is to do behind a step was to do before, or the step makes it. -/
theorem mem_frames_set (hi : s.threads[i]? = some (frame :: rest))
    (hx : x ∈ (s.threads.set i (todo ++ rest)).flatten) : x ∈ todo ∨ x ∈ s.frames := by
  obtain hx | hx := mem_flatten_set hx
  · obtain hx | hx := List.mem_append.mp hx
    · exact .inl hx
    · exact .inr (mem_frames hi (List.mem_cons_of_mem _ hx))
  · exact .inr hx

/-- What is not done by the step is still to do. -/
theorem mem_frames_of_ne (hi : s.threads[i]? = some (frame :: rest)) (hx : x ∈ s.frames)
    (hne : x ≠ frame) : x ∈ (s.threads.set i (todo ++ rest)).flatten := by
  obtain hx | hx := mem_flatten_set_old (todo ++ rest) hi hx
  · exact mem_flatten_set_new hi
      (List.mem_append_right _ ((List.mem_cons.mp hx).resolve_left hne))
  · exact hx

theorem mem_frames_spawn : x ∈ (s.spawn frame).frames ↔ x ∈ s.frames ∨ x = frame := by
  unfold frames spawn
  rw [List.flatten_append, List.mem_append, List.flatten_singleton, List.mem_singleton]

end Threads

theorem FrameStep.threads_eq (hs : FrameStep s frame s' todo) : s'.threads = s.threads := by
  cases hs <;> rfl

/-- An event submits no wait before its value. -/
theorem StepCases.reachedInv (hs : StepCases s s') (h : ReachedInv s) : ReachedInv s' := by
  cases hs with
  | @spawn frame hframe hlocked =>
    refine ⟨h.le, h.target, fun c hc => h.due c ?_, h.passes⟩
    obtain hc | hc := hc
    · exact .inl ((mem_frames_spawn.mp hc).resolve_right (hframe c).1.symm)
    · exact .inr ((mem_frames_spawn.mp hc).resolve_right (hframe c).2.symm)
  | @thread i frame rest s₁ todo hi hframe =>
    obtain ⟨h₁, hdue⟩ := hframe.reachedInv h (mem_frames hi List.mem_cons_self)
    refine ⟨h₁.le, h₁.target, fun c hc => ?_, h₁.passes⟩
    have hframes : s₁.frames = s.frames := congrArg List.flatten hframe.threads_eq
    have hc' : Runs todo c ∨ Runs s.frames c := by
      obtain hc | hc := hc
      · exact (mem_frames_set hi hc).imp .inl .inl
      · exact (mem_frames_set hi hc).imp .inr .inr
    obtain hc' | hc' := hc'
    · exact hdue c hc'
    · exact h₁.due c (hframes ▸ hc')
  | @execute fence value rest hsignals =>
    have hset : ReachedInv (s.signalEvent fence value) :=
      h.setFence ⟨((h.le fence).1).trans (le_max_left ..), le_max_right ..⟩ (List.Subset.refl _)
    exact ⟨hset.le, hset.target, hset.due, hset.passes⟩
  | @complete fence value rest hsignals =>
    refine ⟨h.le, h.target, fun c hc => h.due c ?_, h.passes⟩
    obtain hc | hc := hc
    · exact .inl ((mem_frames_spawn.mp hc).resolve_right nofun)
    · exact .inr ((mem_frames_spawn.mp hc).resolve_right nofun)
  | @notify c hc hle =>
    refine ⟨h.le, h.target, fun c' hc' => ?_, h.passes⟩
    obtain hc' | hc' := hc'
    · obtain hc' | heq := mem_frames_spawn.mp hc'
      · exact h.due c' (.inl hc')
      · obtain rfl : c' = c := by cases heq; rfl
        exact hle.trans (h.le _).2
    · exact h.due c' (.inr ((mem_frames_spawn.mp hc').resolve_right nofun))

/-! ## The order of the operations -/

variable {initial : Nat → Nat}

theorem Reachable.run (h : Reachable initial s) {events : List (Event R)}
    (hrun : s.run events = some s') : Reachable initial s' := by
  induction events generalizing s with
  | nil =>
    obtain rfl := Option.some.inj hrun
    exact h
  | cons e events ih =>
    obtain ⟨s₁, he, hrun⟩ := Option.bind_eq_some_iff.mp hrun
    exact ih (h.step he) hrun

/-- In every state of every run every queue is in order. -/
theorem Reachable.queueInv (h : Reachable initial s) : ∀ i, QueueInv i (s.queues i) := by
  induction h with
  | create => exact fun _ => .initial
  | step _ hs ih => exact (step_cases hs).queueInv ih

/-- In every state of every run no wait was submitted before its value. -/
theorem Reachable.reachedInv (h : Reachable initial s) : ReachedInv s := by
  induction h with
  | create => exact .create initial
  | step _ hs ih => exact (step_cases hs).reachedInv ih

/-- **The operations of a queue** are submitted once and in the order in which they were enqueued,
and none that follows a wait before its fence has had the value. -/
theorem queue_order (h : Reachable initial s) (queue : Nat) :
    (s.queues queue).submitted ++ (s.queues queue).waiting.map (·.operation) =
        (s.queues queue).enqueued ∧
      ∀ fence value, .wait fence value ∈ (s.queues queue).submitted →
        value ≤ s.reached fence :=
  ⟨(h.queueInv queue).log, (h.reachedInv.passes queue).submitted⟩

/-- A queue waits for the fence, which gets the value from outside. -/
def waitAndSignal : List (Event Unit) :=
  [.call 0 (.wait 0 1), .call 0 (.execute ()), .thread 0, .thread 0, .thread 0, .thread 0,
    .thread 0, .thread 1, .thread 1, .thread 1, .signal 0 1, .thread 2]

theorem queue_order_waitAndSignal : ∃ s : System Unit,
    (create fun _ => 0).run (waitAndSignal ++ List.replicate 7 (.thread 2)) = some s ∧
      (s.queues 0).submitted = [.wait 0 1, .execute ()] ∧
      (s.queues 0).submitted ++ (s.queues 0).waiting.map (·.operation) = (s.queues 0).enqueued ∧
      ∀ fence value, .wait fence value ∈ (s.queues 0).submitted → value ≤ s.reached fence := by
  have hrun : (create fun _ => 0 : System Unit).run
      (waitAndSignal ++ List.replicate 7 (.thread 2)) = some _ := rfl
  exact ⟨_, hrun, rfl, queue_order (Reachable.create.run hrun) 0⟩

end System

end QueueFences

end Dxmt
