import Dxmt.QueueWakeup
import Mathlib.Logic.Relation

/-!
# Threads that wait for a queue

`mutex_` of a queue has one holder (`LockInv`), and the holder waits for another queue only while it
runs the callbacks of a signal. The queues of these callbacks have waited and signal no more under
their lock, so no cycle of queues arises (`waits_for_running`), but for one: `AddCompletionCallback`
finds the value reached and runs the callback under the lock that it needs. That thread and its
queue stand still for ever (`selfLocked_forever`).

The other wait under a lock is that of `CommitCurrentChunk` for a free chunk. Chunks are not
modelled, so a thread whose next step commits one is named for what it is (`Commits`): when no chunk
is free it waits for the finish thread, and that one may run a callback that needs the lock.
-/

namespace Dxmt

namespace QueueFences

open Dxmt.QueueFences.CommandQueue

variable {R : Type}

namespace Frame

/-- The queue whose `mutex_` is held. -/
def locks : Frame R → Option Nat
  | .locked queue => some queue
  | _ => none

/-- The queue whose `mutex_` is locked next. -/
def awaits : Frame R → Option Nat
  | .enqueuePendingOperation queue _ => some queue
  | .callback c => some c.queue
  | _ => none

theorem locks_eq_some {frame : Frame R} {queue : Nat} :
    frame.locks = some queue ↔ frame = .locked queue := by
  cases frame <;> simp only [locks, reduceCtorEq, Option.some.injEq, locked.injEq]

end Frame

namespace System

variable {s s' : System R} {frame : Frame R} {todo t : List (Frame R)} {queue : Nat}

/-! ## One holder -/

/-- The queues that a thread holds. -/
def held (t : List (Frame R)) : List Nat := t.filterMap Frame.locks

theorem mem_held : queue ∈ held t ↔ .locked queue ∈ t := by
  unfold held
  rw [List.mem_filterMap]
  constructor
  · rintro ⟨frame, hframe, hlocks⟩
    exact Frame.locks_eq_some.mp hlocks ▸ hframe
  · exact fun h => ⟨_, h, rfl⟩

/-- A queue is held. -/
def lockCount (s : System R) (queue : Nat) : Nat :=
  if (s.queues queue).phase.isSome then 1 else 0

/-- A queue is locked as its phase says. -/
theorem lockCount_setQueue (s : System R) (queue : Nat) (q : CommandQueue R) (i : Nat) :
    (s.setQueue queue q).lockCount i =
      if i = queue then if q.phase.isSome then 1 else 0 else s.lockCount i := by
  unfold lockCount
  rw [setQueue_queues]
  split <;> rfl

theorem phase_drain (q : CommandQueue R) : q.drainPendingOperationsLocked.phase.isSome = true := by
  unfold drainPendingOperationsLocked
  split <;> rfl

theorem held_completedCallbacks (s : System R) (fence value : Nat) :
    held (s.completedCallbacks fence value) = [] := by
  refine List.filterMap_eq_nil_iff.mpr fun frame hframe => ?_
  obtain ⟨c, -, rfl⟩ := List.mem_map.mp hframe
  rfl

/-- A step locks and unlocks a queue with what it has to do. -/
theorem FrameStep.lockCount (hs : FrameStep s frame s' todo) (i : Nat) :
    s'.lockCount i + (held [frame]).count i = s.lockCount i + (held todo).count i := by
  -- under the lock
  have hkeep : ∀ {queue : Nat} {q : CommandQueue R} {phase : Phase},
      (s.queues queue).phase = some phase → q.phase.isSome = true →
      (s.setQueue queue q).lockCount i = s.lockCount i := by
    intro queue q phase hphase hq
    rw [lockCount_setQueue]
    split
    next hi => rw [hi, System.lockCount, hphase]; rfl
    next => rfl
  -- from outside
  have hlock : ∀ {queue : Nat} {q : CommandQueue R}, (s.queues queue).phase = none →
      q.phase.isSome = true →
      (s.setQueue queue q).lockCount i = s.lockCount i + [queue].count i := by
    intro queue q hphase hq
    rw [lockCount_setQueue]
    split
    next hi => rw [hi, System.lockCount, hphase, List.count_singleton_self]; rfl
    next hi => rw [List.count_singleton, if_neg fun h => hi (beq_iff_eq.mp h).symm, Nat.add_zero]
  cases hs with
  | enqueue hphase => exact hlock hphase (phase_drain _)
  | empty hphase hp => exact congrArg (· + _) (hkeep hphase rfl)
  | execute hphase hp hop =>
    exact congrArg (· + _) (hkeep hphase (congrArg Option.isSome hphase :))
  | signalNow hphase hp hop hwaited => exact congrArg (· + _) (hkeep hphase rfl)
  | submitSignal hphase hp hop =>
    exact congrArg (· + _) (hkeep hphase (congrArg Option.isSome hphase :))
  | stop hphase hp hop hcompleted harmed => exact congrArg (· + _) (hkeep hphase rfl)
  | arm hphase hp hop hcompleted harmed => exact congrArg (· + _) (hkeep hphase rfl)
  | pass hphase hp hop hpass =>
    exact congrArg (· + _) (hkeep hphase (congrArg Option.isSome hphase :))
  | signaled hphase => exact congrArg (· + _) (hkeep hphase rfl)
  | runNow hphase hreached => exact congrArg (· + _) (hkeep hphase rfl)
  | add hphase hreached => exact congrArg (· + _) (hkeep hphase rfl)
  | listen hphase => exact congrArg (· + _) (hkeep hphase rfl)
  | @leave queue hphase =>
    rw [lockCount_setQueue]
    split
    next hi =>
      rw [hi, System.lockCount, hphase]
      exact (Nat.zero_add _).trans List.count_singleton_self
    next hi =>
      refine congrArg (s.lockCount i + ·) ((List.count_singleton ..).trans ?_)
      exact if_neg fun h => hi (beq_iff_eq.mp h).symm
  | @signal fence value =>
    exact congrArg (s.lockCount i + List.count i ·) (held_completedCallbacks s fence value).symm
  | signalValue => rfl
  | @setCompletedValue fence value =>
    exact congrArg (s.lockCount i + List.count i ·) (held_completedCallbacks s fence value).symm
  | ranOnce hfired => rfl
  | runOnce hfired => rfl
  | callback hphase => exact hlock hphase (phase_drain _)

/-- `mutex_` of a queue has at most one holder. -/
def OneHolder (s : System R) : Prop := ∀ i, (s.threads.flatMap held).count i = s.lockCount i

theorem held_cons (frame : Frame R) (t : List (Frame R)) :
    held (frame :: t) = held [frame] ++ held t :=
  List.filterMap_append (l := [frame])

theorem held_append (t t' : List (Frame R)) : held (t ++ t') = held t ++ held t' :=
  List.filterMap_append

theorem spawn_flatMap_held (s : System R) {frame : Frame R} (h : frame.locks = none) :
    (s.spawn frame).threads.flatMap held = s.threads.flatMap held := by
  unfold spawn
  rw [List.flatMap_append, List.flatMap_singleton, held, List.filterMap_cons_none h,
    List.filterMap_nil, List.append_nil]

/-- An event leaves every mutex with one holder. -/
theorem StepCases.oneHolder (hs : StepCases s s') (h : OneHolder s) : OneHolder s' := by
  intro i
  cases hs with
  | @spawn frame hframe hlocked =>
    have hlocks : frame.locks = none := by
      refine Option.eq_none_iff_forall_ne_some.mpr fun queue hq => ?_
      exact hlocked queue (Frame.locks_eq_some.mp hq)
    exact (congrArg (List.count i) (spawn_flatMap_held s hlocks)).trans (h i)
  | @thread k frame rest s₁ todo hk hframe =>
    have hset := count_flatMap_set hk held (todo ++ rest) i
    have hlock := hframe.lockCount i
    have hi := h i
    rw [held_cons, held_append, List.count_append, List.count_append] at hset
    change ((s.threads.set k (todo ++ rest)).flatMap held).count i = s₁.lockCount i
    omega
  | execute => exact h i
  | complete => exact (congrArg (List.count i) (spawn_flatMap_held _ rfl)).trans (h i)
  | notify => exact (congrArg (List.count i) (spawn_flatMap_held _ rfl)).trans (h i)

theorem OneHolder.nodup (h : OneHolder s) : (s.threads.flatMap held).Nodup := by
  refine List.nodup_iff_count_le_one.mpr fun i => ?_
  rw [h i, lockCount]
  split <;> omega

theorem OneHolder.phase_isSome (h : OneHolder s) (ht : t ∈ s.threads) (hq : .locked queue ∈ t) :
    (s.queues queue).phase.isSome = true := by
  have hmem : queue ∈ s.threads.flatMap held := List.mem_flatMap.mpr ⟨t, ht, mem_held.mpr hq⟩
  have hcount := List.count_pos_iff.mpr hmem
  rw [h queue, lockCount] at hcount
  by_contra hnone
  rw [if_neg hnone] at hcount
  exact lt_irrefl _ hcount

/-- A queue that is locked is held by a thread. -/
theorem OneHolder.holder (h : OneHolder s) (hphase : (s.queues queue).phase.isSome = true) :
    ∃ (i : Nat) (t : List (Frame R)), s.threads[i]? = some t ∧ .locked queue ∈ t := by
  have hcount : 0 < (s.threads.flatMap held).count queue := by
    rw [h queue, lockCount, if_pos hphase]
    exact Nat.one_pos
  obtain ⟨t, ht, hq⟩ := List.mem_flatMap.mp (List.count_pos_iff.mp hcount)
  obtain ⟨i, hi⟩ := List.mem_iff_getElem?.mp ht
  exact ⟨i, t, hi, mem_held.mp hq⟩

/-- Two threads do not hold one queue. -/
theorem OneHolder.holder_eq (h : OneHolder s) {i j : Nat} {t' : List (Frame R)}
    (hi : s.threads[i]? = some t) (hj : s.threads[j]? = some t') (hq : .locked queue ∈ t)
    (hq' : .locked queue ∈ t') : i = j :=
  holder_index_unique h.nodup hi hj (mem_held.mpr hq) (mem_held.mpr hq')

/-- A thread does not hold a queue twice. -/
theorem OneHolder.not_twice (h : OneHolder s) (ht : .locked queue :: t ∈ s.threads) :
    .locked queue ∉ t := by
  intro hq
  have hnodup := (List.nodup_flatMap.mp h.nodup).1 _ ht
  rw [held_cons] at hnodup
  exact (List.disjoint_of_nodup_append hnodup) List.mem_cons_self (mem_held.mpr hq)

/-! ## What is done under a lock -/

/-- Every queue that is held submits a signal. -/
def Signaling (s : System R) (t : List (Frame R)) : Prop :=
  ∀ queue, .locked queue ∈ t → (s.queues queue).phase = some .signaling

/-- What a thread does before it goes on with `t`. -/
structure Above (s : System R) (frame : Frame R) (t : List (Frame R)) : Prop where
  alone : ∀ queue operation, frame = .enqueuePendingOperation queue operation → t = []
  signaling : Signaling s t ∨
    ∃ c, (frame = .runOnce c ∨ frame = .callback c) ∧ t.head? = some (.locked c.queue)

/-- The locks of a thread are in order. -/
def Ordered (s : System R) : List (Frame R) → Prop
  | [] => True
  | frame :: t => Ordered s t ∧ Above s frame t

theorem Signaling.mono (h : Signaling s t)
    (hsignaling : ∀ queue, .locked queue ∈ t → (s.queues queue).phase = some .signaling →
      (s'.queues queue).phase = some .signaling) : Signaling s' t :=
  fun queue hq => hsignaling queue hq (h queue hq)

theorem Above.mono (h : Above s frame t)
    (hsignaling : ∀ queue, .locked queue ∈ t → (s.queues queue).phase = some .signaling →
      (s'.queues queue).phase = some .signaling) : Above s' frame t :=
  ⟨h.alone, h.signaling.imp_left fun h => h.mono hsignaling⟩

theorem Ordered.mono (h : Ordered s t)
    (hsignaling : ∀ queue, .locked queue ∈ t → (s.queues queue).phase = some .signaling →
      (s'.queues queue).phase = some .signaling) : Ordered s' t := by
  induction t with
  | nil => trivial
  | cons frame t ih =>
    have htail : ∀ queue, .locked queue ∈ t → (s.queues queue).phase = some .signaling →
        (s'.queues queue).phase = some .signaling :=
      fun queue hq => hsignaling queue (List.mem_cons_of_mem _ hq)
    exact ⟨ih h.1 htail, h.2.mono htail⟩

/-- Under the lock of a signal the callbacks are run. -/
theorem Ordered.run {todo : List (Frame R)} (h : Ordered s t) (hsignaling : Signaling s t)
    (hlocks : held todo = [])
    (halone : ∀ queue operation, .enqueuePendingOperation queue operation ∉ todo) :
    Ordered s (todo ++ t) := by
  induction todo with
  | nil => exact h
  | cons frame todo ih =>
    rw [held_cons] at hlocks
    have htodo := (List.append_eq_nil_iff.mp hlocks).2
    refine ⟨ih htodo fun queue operation hq => halone queue operation (List.mem_cons_of_mem _ hq),
      fun queue operation hq => absurd (hq ▸ List.mem_cons_self) (halone queue operation),
      .inl fun queue hq => ?_⟩
    refine hsignaling queue ((List.mem_append.mp hq).resolve_left fun hq => ?_)
    rw [← mem_held, htodo] at hq
    exact nomatch hq

/-- A step leaves the queues that others hold. -/
theorem FrameStep.phase_eq (hs : FrameStep s frame s' todo) (i : Nat)
    (hphase : (s.queues i).phase.isSome = true) (hne : frame ≠ .locked i) :
    s'.queues i = s.queues i := by
  have hset : ∀ {queue : Nat} {q : CommandQueue R}, i ≠ queue →
      (s.setQueue queue q).queues i = s.queues i :=
    fun hi => (setQueue_queues ..).trans (if_neg hi)
  have hother : ∀ {queue : Nat}, Frame.locked queue ≠ (.locked i : Frame R) → i ≠ queue :=
    fun hne heq => hne (heq ▸ rfl)
  cases hs with
  | enqueue hnone =>
    refine hset fun heq => ?_
    rw [heq, hnone] at hphase
    cases hphase
  | callback hnone =>
    refine hset fun heq => ?_
    rw [heq, hnone] at hphase
    cases hphase
  | signal => rfl
  | signalValue => rfl
  | setCompletedValue => rfl
  | ranOnce => rfl
  | runOnce => rfl
  | _ => exact hset (hother hne)

/-- Callbacks that are taken hold nothing. -/
theorem completedCallbacks_alone (s : System R) (fence value queue : Nat)
    (operation : Operation R) :
    .enqueuePendingOperation queue operation ∉ s.completedCallbacks fence value := by
  intro h
  obtain ⟨c, -, hc⟩ := List.mem_map.mp h
  cases hc

/-- The step lemma of the order. -/
theorem FrameStep.ordered (hs : FrameStep s frame s' todo) (hq : ∀ i, QueueInv i (s.queues i))
    (h : Ordered s (frame :: t)) (hheld : ∀ queue, .locked queue ∈ frame :: t →
      (s.queues queue).phase.isSome = true)
    (hnot : ∀ queue, frame = .locked queue → .locked queue ∉ t) : Ordered s' (todo ++ t) := by
  obtain ⟨hordered, habove⟩ := h
  have hkeep : ∀ queue, .locked queue ∈ t → (s.queues queue).phase = some .signaling →
      (s'.queues queue).phase = some .signaling := fun queue hlocked hphase => by
    rw [hs.phase_eq queue (hheld queue (List.mem_cons_of_mem _ hlocked))
      fun heq => hnot queue heq hlocked]
    exact hphase
  have hordered' : Ordered s' t := hordered.mono hkeep
  have habove' : Above s' frame t := habove.mono hkeep
  -- a section under a lock, which is above what the step was above
  have hsection : ∀ queue, (∀ c, frame ≠ .runOnce c) →
      (∀ c, frame = .callback c → (s.queues c.queue).phase = none) →
      Signaling s' t ∧ Ordered s' (.locked queue :: t) := by
    intro queue hrun hcallback
    have hsignaling : Signaling s' t := by
      refine habove'.signaling.resolve_right ?_
      rintro ⟨c, hc, hhead⟩
      have hnone := hcallback c (hc.resolve_left (hrun c))
      have hsome := hheld c.queue (List.mem_cons_of_mem _ (List.mem_of_mem_head? hhead))
      rw [hnone] at hsome
      cases hsome
    exact ⟨hsignaling, hordered', nofun, .inl hsignaling⟩
  cases hs with
  | enqueue hphase => exact (hsection _ nofun nofun).2
  | empty hphase hp => exact (hsection _ nofun nofun).2
  | execute hphase hp hop => exact (hsection _ nofun nofun).2
  | @signalNow queue p ps fence value hphase hp hop hwaited =>
    obtain ⟨hsignaling, hsec⟩ := hsection queue nofun nofun
    refine ⟨hsec, nofun, .inl fun queue' hq' => ?_⟩
    obtain heq | hq' := List.mem_cons.mp hq'
    · obtain rfl : queue' = queue := by cases heq; rfl
      exact (congrArg CommandQueue.phase (setQueue_queues ..)).trans
        (congrArg CommandQueue.phase (if_pos rfl))
    · exact hsignaling queue' hq'
  | submitSignal hphase hp hop => exact (hsection _ nofun nofun).2
  | stop hphase hp hop hcompleted harmed => exact (hsection _ nofun nofun).2
  | arm hphase hp hop hcompleted harmed => exact (hsection _ nofun nofun).2
  | pass hphase hp hop hpass => exact (hsection _ nofun nofun).2
  | signaled hphase => exact (hsection _ nofun nofun).2
  | @runNow queue c hphase hreached =>
    have hqueue := ((hq queue).adding c (.inl hphase)).1
    exact ⟨(hsection _ nofun nofun).2, nofun, .inr ⟨c, .inl rfl, hqueue ▸ rfl⟩⟩
  | add hphase hreached => exact (hsection _ nofun nofun).2
  | listen hphase => exact (hsection _ nofun nofun).2
  | leave hphase => exact hordered'
  | @signal fence value =>
    have hsignaling := (hsection 0 nofun nofun).1
    refine hordered'.run hsignaling (held_completedCallbacks s fence value) ?_
    rintro queue operation (_ | ⟨_, hmem⟩)
    exact completedCallbacks_alone s fence value queue operation hmem
  | signalValue => exact hordered'
  | @setCompletedValue fence value =>
    have hsignaling := (hsection 0 nofun nofun).1
    exact hordered'.run hsignaling (held_completedCallbacks s fence value)
      (completedCallbacks_alone s fence value)
  | ranOnce hfired => exact hordered'
  | @runOnce c hfired =>
    refine ⟨hordered', nofun, habove'.signaling.imp_right ?_⟩
    rintro ⟨c', hc, hhead⟩
    obtain rfl : c = c' := by
      obtain hc | hc := hc <;> cases hc
      rfl
    exact ⟨c, .inr rfl, hhead⟩
  | callback hphase => exact (hsection _ nofun fun c hc => by cases hc; exact hphase).2

/-- At most one thread holds a queue's mutex, and calls hold mutexes in order. -/
structure LockInv (s : System R) : Prop where
  holder : OneHolder s
  ordered : ∀ (i : Nat) (t : List (Frame R)), s.threads[i]? = some t → Ordered s t

theorem ordered_spawn (h : ∀ (i : Nat) (t : List (Frame R)), s.threads[i]? = some t → Ordered s t)
    (frame : Frame R) (i : Nat) (t : List (Frame R))
    (hi : (s.spawn frame).threads[i]? = some t) : Ordered (s.spawn frame) t := by
  have hmem := List.mem_of_getElem? hi
  obtain ht | ht := List.mem_append.mp hmem
  · obtain ⟨j, hj⟩ := List.mem_iff_getElem?.mp ht
    exact (h j t hj).mono fun _ _ => id
  · obtain rfl := List.mem_singleton.mp ht
    exact ⟨trivial, fun _ _ _ => rfl, .inl nofun⟩

/-- An event keeps the invariant. -/
theorem StepCases.lockInv (hs : StepCases s s') (hq : ∀ i, QueueInv i (s.queues i))
    (h : LockInv s) : LockInv s' := by
  refine ⟨hs.oneHolder h.holder, ?_⟩
  cases hs with
  | @spawn frame hframe hlocked => exact ordered_spawn h.ordered frame
  | @thread k frame rest s₁ todo hk hframe =>
    intro i t hi
    have hrest : frame :: rest ∈ s.threads := List.mem_of_getElem? hk
    have hheld : ∀ queue, .locked queue ∈ frame :: rest → (s.queues queue).phase.isSome = true :=
      fun queue hq => h.holder.phase_isSome hrest hq
    rw [List.getElem?_set] at hi
    split at hi
    next hki =>
      split at hi
      next =>
        obtain rfl := Option.some.inj hi
        refine (hframe.ordered hq (h.ordered k _ hk) hheld fun queue hq => ?_).mono fun _ _ => id
        exact h.holder.not_twice (hq ▸ hrest)
      next => cases hi
    next hki =>
      -- what the other thread holds is not touched
      refine (h.ordered i t hi).mono fun queue hlocked hphase => ?_
      refine (congrArg CommandQueue.phase (hframe.phase_eq queue ?_ fun heq => ?_)).trans hphase
      · exact h.holder.phase_isSome (List.mem_of_getElem? hi) hlocked
      · exact hki (h.holder.holder_eq hk hi (heq ▸ List.mem_cons_self) hlocked)
  | execute => exact fun i t hi => (h.ordered i t hi).mono fun _ _ => id
  | @complete fence value rest hsignals =>
    refine ordered_spawn ?_ _
    exact fun i t hi => (h.ordered i t hi).mono fun _ _ => id
  | @notify c hc hle =>
    refine ordered_spawn ?_ _
    exact fun i t hi => (h.ordered i t hi).mono fun _ _ => id

/-- The invariant holds in every state of every run. -/
theorem Reachable.lockInv {initial : Nat → Nat} (h : Reachable initial s) : LockInv s := by
  induction h with
  | create => exact ⟨fun _ => rfl, fun _ _ hi => nomatch hi⟩
  | step h hs ih => exact (step_cases hs).lockInv h.queueInv ih

/-! ## Who waits for whom -/

/-- The thread can take a step. -/
def CanRun (s : System R) (i : Nat) : Prop := (s.step (.thread i)).isSome = true

/-- The first thread needs a queue that the second one holds. -/
def Waits (s : System R) (i j : Nat) : Prop :=
  ∃ (frame : Frame R) (rest t : List (Frame R)) (queue : Nat),
    s.threads[i]? = some (frame :: rest) ∧ frame.awaits = some queue ∧
      s.threads[j]? = some t ∧ .locked queue ∈ t

/-- The callback of a wait under the lock that it needs itself. -/
def SelfLocked (s : System R) (i : Nat) : Prop :=
  ∃ (c : WaitCallback) (rest : List (Frame R)),
    s.threads[i]? = some (.callback c :: .locked c.queue :: rest)

variable {i j : Nat} {rest : List (Frame R)}

/-- A thread can run where its first frame can. -/
theorem canRun_iff (hi : s.threads[i]? = some (frame :: rest)) :
    CanRun s i ↔ (s.runFrame frame).isSome = true := by
  unfold CanRun step
  dsimp only
  rw [hi]
  dsimp only
  rw [Option.isSome_map]

/-- A thread that cannot go on waits for a queue that is held. -/
theorem LockInv.canRun_or_waits (h : LockInv s) (hi : s.threads[i]? = some (frame :: rest)) :
    CanRun s i ∨ ∃ (queue j : Nat) (t : List (Frame R)), frame.awaits = some queue ∧
      s.threads[j]? = some t ∧ .locked queue ∈ t := by
  rw [canRun_iff hi]
  have hwaits : ∀ {queue : Nat} {phase : Phase}, frame.awaits = some queue →
      (s.queues queue).phase = some phase → ∃ (queue j : Nat) (t : List (Frame R)),
        frame.awaits = some queue ∧ s.threads[j]? = some t ∧ .locked queue ∈ t := by
    intro queue phase hawaits hphase
    have hsome : (s.queues queue).phase.isSome = true := hphase ▸ rfl
    obtain ⟨j, t, hj, ht⟩ := h.holder.holder hsome
    exact ⟨queue, j, t, hawaits, hj, ht⟩
  cases frame with
  | enqueuePendingOperation queue operation =>
    cases hphase : (s.queues queue).phase with
    | none => exact .inl (by rw [runFrame, hphase]; rfl)
    | some phase => exact .inr (hwaits rfl hphase)
  | locked queue =>
    have hphase := h.holder.phase_isSome (List.mem_of_getElem? hi) List.mem_cons_self
    exact .inl (by rw [runFrame, Option.isSome_map]; exact hphase)
  | signal fence value => exact .inl rfl
  | signalValue fence value => exact .inl rfl
  | setCompletedValue fence value => exact .inl rfl
  | runOnce c =>
    refine .inl ?_
    unfold runFrame
    dsimp only
    split <;> rfl
  | callback c =>
    cases hphase : (s.queues c.queue).phase with
    | none => exact .inl (by rw [runFrame, hphase]; rfl)
    | some phase => exact .inr (hwaits rfl hphase)

/-- The holder of a queue goes on, or runs a callback under its own lock or that of a signal. -/
theorem LockInv.holder_cases (h : LockInv s) (hj : s.threads[j]? = some t)
    (hlocked : .locked queue ∈ t) :
    CanRun s j ∨ SelfLocked s j ∨ (s.queues queue).phase = some .signaling ∧
      ∃ (c : WaitCallback) (rest : List (Frame R)), s.threads[j]? = some (.callback c :: rest) := by
  obtain _ | ⟨frame, t⟩ := t
  · exact nomatch hlocked
  obtain hrun | ⟨queue', _, _, hawaits, -, -⟩ := h.canRun_or_waits hj
  · exact .inl hrun
  have habove := (h.ordered j _ hj).2
  cases frame with
  | enqueuePendingOperation queue'' operation =>
    rw [habove.alone queue'' operation rfl] at hlocked
    exact nomatch List.mem_singleton.mp hlocked
  | callback c =>
    have hlocked : .locked queue ∈ t := (List.mem_cons.mp hlocked).resolve_left nofun
    obtain hsignaling | ⟨c', hc, hhead⟩ := habove.signaling
    · exact .inr (.inr ⟨hsignaling queue hlocked, c, t, hj⟩)
    · obtain rfl : c = c' := by
        obtain hc | hc := hc <;> cases hc
        rfl
      obtain ⟨rest, rfl⟩ : ∃ rest, t = .locked c.queue :: rest := by
        cases t with
        | nil => exact nomatch hhead
        | cons x rest => exact ⟨rest, congrArg (· :: rest) (Option.some.inj hhead)⟩
      exact .inr (.inl ⟨c, rest, hj⟩)
  | locked _ => cases hawaits
  | signal _ _ => cases hawaits
  | signalValue _ _ => cases hawaits
  | setCompletedValue _ _ => cases hawaits
  | runOnce _ => cases hawaits

/-- The next turn of the loop commits a chunk under the lock of a queue. -/
def Commits (s : System R) (i : Nat) : Prop :=
  ∃ (queue : Nat) (rest : List (Frame R)) (p : PendingOperation R) (ps : List (PendingOperation R)),
    s.threads[i]? = some (.locked queue :: rest) ∧ (s.queues queue).phase = some .draining ∧
      (s.queues queue).pendingOperations = p :: ps ∧
      ((∃ records, p.operation = .execute records) ∨ ∃ fence value, p.operation =
        .signal fence value ∧
        ¬((s.queues queue).submittedBatches = 0 ∧ (s.queues queue).hasWaited = false))

/-- How a thread goes on at the end of a chain of holders. -/
inductive Ends (s : System R) (j : Nat) : Prop where
  | runs (hrun : CanRun s j) (hcommits : ¬Commits s j)
  | commits (hcommits : Commits s j)
  | selfLocked (hself : SelfLocked s j)

theorem CanRun.ends (h : CanRun s j) : Ends s j := by
  by_cases hcommits : Commits s j
  · exact .commits hcommits
  · exact .runs h hcommits

/-- **No thread waits for ever** for a lock, but for one that runs a callback under its own or waits
for a chunk to commit. -/
theorem waits_for_running {initial : Nat → Nat} (h : Reachable initial s)
    (hi : s.threads[i]? = some (frame :: rest)) :
    ∃ j, Relation.ReflTransGen (Waits s) i j ∧ Ends s j := by
  have hlock := h.lockInv
  obtain hrun | ⟨queue, j, t, hawaits, hj, ht⟩ := hlock.canRun_or_waits hi
  · exact ⟨i, .refl, hrun.ends⟩
  have hij : Waits s i j := ⟨frame, rest, t, queue, hi, hawaits, hj, ht⟩
  obtain hrun | hself | ⟨-, c, rest', hj'⟩ := hlock.holder_cases hj ht
  · exact ⟨j, .single hij, hrun.ends⟩
  · exact ⟨j, .single hij, .selfLocked hself⟩
  obtain hrun | ⟨queue', k, t', hawaits', hk, ht'⟩ := hlock.canRun_or_waits hj'
  · exact ⟨j, .single hij, hrun.ends⟩
  obtain rfl : c.queue = queue' := Option.some.inj hawaits'
  have hjk : Waits s j k := ⟨_, rest', t', c.queue, hj', hawaits', hk, ht'⟩
  obtain hrun | hself | ⟨hsignaling, -⟩ := hlock.holder_cases hk ht'
  · exact ⟨k, .tail (.single hij) hjk, hrun.ends⟩
  · exact ⟨k, .tail (.single hij) hjk, .selfLocked hself⟩
  -- a queue that has waited does not signal under its lock
  have hknows : Knows s c :=
    .todo (.inr (List.mem_flatten.mpr ⟨_, List.mem_of_getElem? hj', List.mem_cons_self⟩))
  have hwaited := (h.known c hknows).2
  rw [(h.queueInv c.queue).signaling hsignaling] at hwaited
  cases hwaited

/-- The value is stored between the check of the queue and that of the fence. -/
def storeBetween : List (Event Unit) :=
  [.call 0 (.wait 0 1), .thread 0, .thread 0, .signal 0 1, .thread 1, .thread 0, .thread 0]

theorem waits_for_running_storeBetween : ∃ s : System Unit,
    (create fun _ => 0).run (storeBetween ++ [.call 0 (.execute ())]) = some s ∧
      (∃ frame rest, s.threads[2]? = some (frame :: rest)) ∧
      ∃ j, Relation.ReflTransGen (Waits s) 2 j ∧ Ends s j := by
  have hrun : (create fun _ => 0 : System Unit).run
      (storeBetween ++ [.call 0 (.execute ())]) = some _ := rfl
  exact ⟨_, hrun, ⟨_, _, rfl⟩, waits_for_running (Reachable.create.run hrun) rfl⟩

/-- A thread that runs a callback under its own lock, and its queue, are as they were. -/
theorem StepCases.selfLocked (hs : StepCases s s') (h : LockInv s) {c : WaitCallback}
    (hi : s.threads[i]? = some (.callback c :: .locked c.queue :: rest)) :
    s'.threads[i]? = s.threads[i]? ∧ s'.queues c.queue = s.queues c.queue := by
  have hmem : (.locked c.queue : Frame R) ∈ .callback c :: .locked c.queue :: rest :=
    List.mem_cons_of_mem _ List.mem_cons_self
  have hphase := h.holder.phase_isSome (List.mem_of_getElem? hi) hmem
  have hspawn : ∀ frame : Frame R, (s.threads ++ [[frame]])[i]? = s.threads[i]? :=
    fun frame => List.getElem?_append_left (List.getElem?_eq_some_iff.mp hi).1
  cases hs with
  | @spawn frame hframe hlocked => exact ⟨hspawn frame, rfl⟩
  | @thread k frame rest' s₁ todo hk hframe =>
    by_cases hki : k = i
    · subst hki
      obtain ⟨rfl, -⟩ := List.cons.inj (Option.some.inj (hk.symm.trans hi))
      cases hframe with
      | callback hnone =>
        rw [hnone] at hphase
        cases hphase
    · refine ⟨List.getElem?_set_ne hki, hframe.phase_eq c.queue hphase fun heq => hki ?_⟩
      exact h.holder.holder_eq hk hi (heq ▸ List.mem_cons_self) hmem
  | execute => exact ⟨rfl, rfl⟩
  | complete => exact ⟨hspawn _, rfl⟩
  | notify => exact ⟨hspawn _, rfl⟩

/-- **A callback under its own lock** keeps its thread and its queue as they are for ever. -/
theorem selfLocked_forever {initial : Nat → Nat} (h : Reachable initial s) {c : WaitCallback}
    (hi : s.threads[i]? = some (.callback c :: .locked c.queue :: rest)) (events : List (Event R))
    (hrun : s.run events = some s') :
    s'.threads[i]? = s.threads[i]? ∧ s'.queues c.queue = s.queues c.queue := by
  induction events generalizing s with
  | nil =>
    obtain rfl := Option.some.inj hrun
    exact ⟨rfl, rfl⟩
  | cons e events ih =>
    obtain ⟨s₁, he, hrun⟩ := Option.bind_eq_some_iff.mp hrun
    obtain ⟨hthread, hqueue⟩ := (step_cases he).selfLocked h.lockInv hi
    obtain ⟨hthread', hqueue'⟩ := ih (h.step he) (hthread.trans hi) hrun
    exact ⟨hthread'.trans hthread, hqueue'.trans hqueue⟩

theorem selfLocked_forever_storeBetween : ∃ s s' : System Unit,
    (create fun _ => 0).run storeBetween = some s ∧
      s.run [.thread 1, .call 0 (.execute ()), .signal 0 2, .thread 3] = some s' ∧
      SelfLocked s 0 ∧ s'.threads[0]? = s.threads[0]? ∧ s'.queues 0 = s.queues 0 := by
  have hrun : (create fun _ => 0 : System Unit).run storeBetween = some _ := rfl
  refine ⟨_, _, hrun, rfl, ⟨_, _, rfl⟩, ?_⟩
  exact selfLocked_forever (c := ⟨0, 0, 0, 1⟩) (Reachable.create.run hrun) rfl
    [.thread 1, .call 0 (.execute ()), .signal 0 2, .thread 3] rfl

end System

end QueueFences

end Dxmt
