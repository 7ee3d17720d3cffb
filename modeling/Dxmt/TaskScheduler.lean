import Dxmt.ListSlots
import Mathlib.Data.Fintype.Card
import Mathlib.Data.Set.Finite.Lattice
import Mathlib.Logic.Relation

/-!
# The task scheduler: `task_scheduler`

A task that is submitted waits in a queue until a worker takes it. The worker runs it; either the
task is finished, or it needs another one that is not, and then it is registered in the waiting list
of that one. A finished task hands its waiting list over: under `deps_mutex_` into a buffer of the
worker, then under `worker_mutex_` into the continuation queue.

One step is a critical section, a call of `run_task`, or an access to the atomic counter or the
condition variable. A worker asleep in `worker_cond_.wait` is woken by a notification, or for no
reason. The tasks that `run_task` may ask for are a relation `needs`. Every task is submitted once,
as the pipeline cache does; the destructor is left out.

Results: `Inv.step` keeps every task in one place, and `tasks_safe` is the statement about runs.
When no worker can take a step every task is done, because a wake-up is never lost and the tasks
that wait would wait for each other in a cycle.

Source: `dxmt_tasks.hpp:70-144`.
-/

namespace Dxmt

/-- Where a worker stands in `worker_func`, with what it holds. -/
inductive Worker (Task : Type) where
  /-- At the top of the loop, without `worker_mutex_`. -/
  | idle
  /-- In `worker_cond_.wait`. -/
  | asleep
  /-- Before `running.fetch_add`. -/
  | taken (task : Task)
  /-- Before `run_task`. -/
  | running (task : Task)
  /-- After `run_task`, before `deps_mutex_`. -/
  | returned (task continuation : Task)
  /-- After `set_done`, before `worker_mutex_`. -/
  | finished (continuationBuffer : List Task)
  /-- Before `worker_cond_.notify_all`. -/
  | notifying
  /-- Before `running.fetch_sub`. -/
  | leaving
deriving DecidableEq

namespace Worker

variable {Task : Type}

/-- The tasks in the worker's hand or in its continuation buffer. -/
def holds : Worker Task → List Task
  | idle | asleep | notifying | leaving => []
  | taken task | running task | returned task _ => [task]
  | finished continuationBuffer => continuationBuffer

/-- A notification reached the worker. -/
def wake : Worker Task → Worker Task
  | asleep => idle
  | w => w

theorem holds_wake (w : Worker Task) : w.wake.holds = w.holds := by cases w <;> rfl

theorem wake_eq_returned {w : Worker Task} {t c : Task} (h : w.wake = returned t c) :
    w = returned t c := by
  cases w <;> first | exact h | cases h

end Worker

/-- `task_scheduler`, with the `done` flags of the tasks. `taskContinuation` has a pair for every
task that waits: what it waits for, and itself. -/
structure TaskScheduler (Task : Type) where
  taskQueue : List Task := []
  taskContinuationQueue : List Task := []
  taskContinuation : List (Task × Task) := []
  done : Task → Bool := fun _ => false
  workers : List (Worker Task) := [.idle, .idle]
  running : Nat := 0
  threads : Nat := 2
  maxThreads : Nat
  /-- The tasks of all calls of `submit`. -/
  submitted : List Task := []

namespace TaskScheduler

variable {Task : Type} [DecidableEq Task]

/-- `notify_one`: some worker that is asleep, if there is one. -/
inductive NotifyOne (ws : List (Worker Task)) : List (Worker Task) → Prop
  | woken (i : Nat) (h : ws[i]? = some .asleep) : NotifyOne ws (ws.set i .idle)
  | missed (h : ∀ w ∈ ws, w ≠ .asleep) : NotifyOne ws ws

/-- The workers after `submit` has looked at the number of running ones. -/
def grow (s : TaskScheduler Task) : TaskScheduler Task :=
  if s.running = s.threads ∧ s.threads < s.maxThreads then
    { s with workers := s.workers ++ [.idle], threads := s.threads + 1 }
  else s

/-- Changes one worker. -/
def setWorker (s : TaskScheduler Task) (i : Nat) (w : Worker Task) : TaskScheduler Task :=
  { s with workers := s.workers.set i w }

/-- The waiting list of a task. -/
def waitingFor (s : TaskScheduler Task) (task : Task) : List Task :=
  (s.taskContinuation.filter (·.1 = task)).map Prod.snd

/-- A step of the `i`th worker. `needs t c` says that `run_task` may return `c` for `t`. -/
inductive WorkerStep (needs : Task → Task → Prop) (s : TaskScheduler Task) (i : Nat) :
    TaskScheduler Task → Prop
  | wait (h : s.workers[i]? = some .idle) (hq : s.taskQueue = [])
      (hc : s.taskContinuationQueue = []) : WorkerStep needs s i (s.setWorker i .asleep)
  | takeContinuation (task : Task) (rest : List Task) (h : s.workers[i]? = some .idle)
      (hc : s.taskContinuationQueue = task :: rest) :
      WorkerStep needs s i ({ s with taskContinuationQueue := rest }.setWorker i (.taken task))
  | take (task : Task) (rest : List Task) (h : s.workers[i]? = some .idle)
      (hc : s.taskContinuationQueue = []) (hq : s.taskQueue = task :: rest) :
      WorkerStep needs s i ({ s with taskQueue := rest }.setWorker i (.taken task))
  | enter (task : Task) (h : s.workers[i]? = some (.taken task)) :
      WorkerStep needs s i ({ s with running := s.running + 1 }.setWorker i (.running task))
  | run (task continuation : Task) (h : s.workers[i]? = some (.running task))
      (hr : continuation = task ∨ needs task continuation ∧ continuation ∈ s.submitted) :
      WorkerStep needs s i (s.setWorker i (.returned task continuation))
  | finish (task : Task) (buffer : List Task) (h : s.workers[i]? = some (.returned task task))
      -- the order of `equal_range` is not specified
      (hb : buffer.Perm (s.waitingFor task)) :
      WorkerStep needs s i
        ({ s with
          taskContinuation := s.taskContinuation.filter (·.1 ≠ task)
          done := Function.update s.done task true }.setWorker i (.finished buffer))
  | spurious (task continuation : Task) (h : s.workers[i]? = some (.returned task continuation))
      (hne : continuation ≠ task) (hd : s.done continuation = true) :
      WorkerStep needs s i (s.setWorker i (.running task))
  | register (task continuation : Task) (h : s.workers[i]? = some (.returned task continuation))
      (hne : continuation ≠ task) (hd : s.done continuation = false) :
      WorkerStep needs s i
        ({ s with taskContinuation := (continuation, task) :: s.taskContinuation }.setWorker i
          .leaving)
  | publish (buffer : List Task) (h : s.workers[i]? = some (.finished buffer)) :
      WorkerStep needs s i
        ({ s with taskContinuationQueue := s.taskContinuationQueue ++ buffer }.setWorker i
          .notifying)
  | notifyAll (h : s.workers[i]? = some .notifying) :
      WorkerStep needs s i ({ s with workers := s.workers.map Worker.wake }.setWorker i .leaving)
  | leave (h : s.workers[i]? = some .leaving) :
      WorkerStep needs s i ({ s with running := s.running - 1 }.setWorker i .idle)

/-- A step: a call of `submit`, a step of a worker, or a worker that wakes up for no reason. -/
inductive Step (needs : Task → Task → Prop) (s : TaskScheduler Task) : TaskScheduler Task → Prop
  | submit (task : Task) (hnew : task ∉ s.submitted) (ws : List (Worker Task))
      (hw : NotifyOne s.grow.workers ws) :
      Step needs s { s.grow with
        taskQueue := s.taskQueue ++ [task]
        submitted := s.submitted ++ [task]
        workers := ws }
  | worker (i : Nat) (s' : TaskScheduler Task) (h : WorkerStep needs s i s') : Step needs s s'
  | spuriousWake (i : Nat) (h : s.workers[i]? = some .asleep) : Step needs s (s.setWorker i .idle)

/-- The scheduler after its constructor. -/
def init (maxThreads : Nat) : TaskScheduler Task := { maxThreads := maxThreads }

/-- The states of all runs. -/
def Reachable (needs : Task → Task → Prop) (s : TaskScheduler Task) : Prop :=
  ∃ maxThreads, Relation.ReflTransGen (Step needs) (init maxThreads) s

/-! ## One place for every task -/

/-- In how many places a task is: the queues, the waiting lists, the workers, and done. -/
def occurrences (s : TaskScheduler Task) (t : Task) : Nat :=
  s.taskQueue.count t + s.taskContinuationQueue.count t +
    (s.taskContinuation.map Prod.snd).count t + (s.workers.flatMap Worker.holds).count t +
    (s.done t).toNat

/-- What holds in every state. -/
structure Inv (needs : Task → Task → Prop) (s : TaskScheduler Task) : Prop where
  placed : ∀ t, s.occurrences t = s.submitted.count t
  once : s.submitted.Nodup
  waiting : ∀ p ∈ s.taskContinuation, s.done p.1 = false ∧ needs p.2 p.1 ∧ p.1 ∈ s.submitted
  returned : ∀ t c, .returned t c ∈ s.workers → c = t ∨ needs t c ∧ c ∈ s.submitted
  workers : s.workers ≠ []
  awake : (∀ w ∈ s.workers, w = .asleep) → s.taskQueue = [] ∧ s.taskContinuationQueue = []

variable {needs : Task → Task → Prop} {s s' : TaskScheduler Task} {i : Nat}

omit [DecidableEq Task] in
theorem flatMap_wake (ws : List (Worker Task)) :
    (ws.map Worker.wake).flatMap Worker.holds = ws.flatMap Worker.holds := by
  rw [List.flatMap_map]
  exact List.flatMap_congr fun w _ => Worker.holds_wake w

theorem occurrences_setWorker {w : Worker Task} (h : s.workers[i]? = some w) (w' : Worker Task)
    (t : Task) :
    (s.setWorker i w').occurrences t + w.holds.count t = s.occurrences t + w'.holds.count t := by
  have hset := count_flatMap_set h Worker.holds w' t
  unfold occurrences setWorker
  dsimp only
  omega

/-- A worker that goes on: `s` has the other changes of the step already. -/
theorem Inv.setWorker {w : Worker Task} (hw : s.workers[i]? = some w) (w' : Worker Task)
    (placed : ∀ t, s.occurrences t + w'.holds.count t = s.submitted.count t + w.holds.count t)
    (once : s.submitted.Nodup)
    (waiting : ∀ p ∈ s.taskContinuation, s.done p.1 = false ∧ needs p.2 p.1 ∧ p.1 ∈ s.submitted)
    (returned : ∀ t c, .returned t c ∈ s.workers → c = t ∨ needs t c ∧ c ∈ s.submitted)
    (returned' : ∀ t c, w' = .returned t c → c = t ∨ needs t c ∧ c ∈ s.submitted)
    (awake : w' = .asleep → s.taskQueue = [] ∧ s.taskContinuationQueue = []) :
    Inv needs (s.setWorker i w') := by
  have hi : i < s.workers.length := (List.getElem?_eq_some_iff.mp hw).1
  refine ⟨fun t => ?_, once, waiting, fun t c hmem => ?_, fun hnil => ?_, fun hall => ?_⟩
  · have hset := occurrences_setWorker hw w' t
    have := placed t
    show _ = s.submitted.count t
    omega
  · rcases List.mem_or_eq_of_mem_set hmem with hmem | heq
    · exact returned t c hmem
    · exact returned' t c heq.symm
  · have hlen : (s.workers.set i w').length = 0 := congrArg List.length hnil
    rw [List.length_set] at hlen
    omega
  · exact awake (hall w' (List.mem_set hi w'))

/-- A worker that goes on and changes nothing else. -/
theorem Inv.move {w : Worker Task} (h : Inv needs s) (hw : s.workers[i]? = some w)
    (w' : Worker Task) (hholds : w'.holds = w.holds)
    (returned' : ∀ t c, w' = .returned t c → c = t ∨ needs t c ∧ c ∈ s.submitted)
    (awake : w' = .asleep → s.taskQueue = [] ∧ s.taskContinuationQueue = []) :
    Inv needs (s.setWorker i w') :=
  Inv.setWorker hw w' (fun t => by rw [hholds, h.placed]) h.once h.waiting h.returned returned'
    awake

/-- A task is in one place at most. -/
theorem Inv.occurrences_le (h : Inv needs s) (t : Task) : s.occurrences t ≤ 1 := by
  rw [h.placed]
  exact List.nodup_iff_count_le_one.mp h.once t

/-- What a worker holds is not done. -/
theorem Inv.not_done (h : Inv needs s) {w : Worker Task} (hw : w ∈ s.workers) {t : Task}
    (ht : t ∈ w.holds) : s.done t = false := by
  have hcount : 0 < (s.workers.flatMap Worker.holds).count t :=
    List.count_pos_iff.mpr (List.mem_flatMap.mpr ⟨w, hw, ht⟩)
  have hle := h.occurrences_le t
  unfold occurrences at hle
  cases hd : s.done t with
  | false => rfl
  | true =>
    rw [hd, Bool.toNat_true] at hle
    omega

/-- The waiting list of a task against the other ones. -/
theorem count_waitingFor (s : TaskScheduler Task) (task t : Task) :
    (s.waitingFor task).count t +
        ((s.taskContinuation.filter (·.1 ≠ task)).map Prod.snd).count t =
      (s.taskContinuation.map Prod.snd).count t := by
  have hne : (fun p : Task × Task => decide (p.1 ≠ task)) = fun p => !decide (p.1 = task) :=
    funext fun p => decide_not
  have hperm := (List.filter_append_perm (fun p : Task × Task => decide (p.1 = task))
    s.taskContinuation).map Prod.snd
  unfold waitingFor
  rw [hne, ← hperm.count_eq t, List.map_append, List.count_append]

/-- **A step of a worker.** -/
theorem Inv.workerStep (h : Inv needs s) (hs : WorkerStep needs s i s') : Inv needs s' := by
  cases hs with
  | wait hw hq hc => exact h.move hw _ rfl (fun _ _ he => nomatch he) fun _ => ⟨hq, hc⟩
  | takeContinuation task rest hw hc =>
    refine Inv.setWorker (by exact hw) _ (fun t => ?_) h.once h.waiting h.returned
      (fun _ _ he => nomatch he) fun he => nomatch he
    have hp := h.placed t
    unfold occurrences at hp ⊢
    rw [hc] at hp
    simp only [List.count_cons, Worker.holds, List.count_nil] at hp ⊢
    omega
  | take task rest hw hc hq =>
    refine Inv.setWorker (by exact hw) _ (fun t => ?_) h.once h.waiting h.returned
      (fun _ _ he => nomatch he) fun he => nomatch he
    have hp := h.placed t
    unfold occurrences at hp ⊢
    rw [hq] at hp
    simp only [List.count_cons, Worker.holds, List.count_nil] at hp ⊢
    omega
  | enter task hw =>
    refine Inv.setWorker (by exact hw) _ (fun t => ?_) h.once h.waiting h.returned
      (fun _ _ he => nomatch he) fun he => nomatch he
    exact congrArg (· + [task].count t) (h.placed t)
  | run task continuation hw hr =>
    refine h.move hw _ rfl (fun t c he => ?_) fun he => nomatch he
    cases he
    exact hr
  | finish task buffer hw hb =>
    have hnd : s.done task = false :=
      h.not_done (List.mem_of_getElem? hw) (List.mem_singleton.mpr rfl)
    refine Inv.setWorker (by exact hw) _ (fun t => ?_) h.once (fun p hp => ?_) h.returned
      (fun _ _ he => nomatch he) fun he => nomatch he
    · have hp := h.placed t
      have hcount := count_waitingFor s task t
      unfold occurrences at hp ⊢
      dsimp only
      rw [show (Worker.finished buffer).holds = buffer from rfl, hb.count_eq]
      show _ = _ + [task].count t
      by_cases ht : t = task
      · rw [ht] at hp hcount ⊢
        rw [Function.update_self, List.count_singleton_self]
        rw [hnd] at hp
        simp only [Bool.toNat_true, Bool.toNat_false] at hp ⊢
        omega
      · rw [Function.update_of_ne ht, List.count_singleton,
          if_neg (by simpa using fun e => ht e.symm)]
        omega
    · rw [List.mem_filter] at hp
      have hw := h.waiting p hp.1
      have hne : p.1 ≠ task := by simpa using hp.2
      dsimp only
      rw [Function.update_of_ne hne]
      exact hw
  | spurious task continuation hw hne hd =>
    exact h.move hw _ rfl (fun _ _ he => nomatch he) fun he => nomatch he
  | register task continuation hw hne hd =>
    have hneeds := (h.returned _ _ (List.mem_of_getElem? hw)).resolve_left hne
    refine Inv.setWorker (by exact hw) _ (fun t => ?_) h.once (List.forall_mem_cons.mpr
      ⟨⟨hd, hneeds⟩, h.waiting⟩) h.returned (fun _ _ he => nomatch he) fun he => nomatch he
    have hp := h.placed t
    unfold occurrences at hp ⊢
    simp only [List.map_cons, List.count_cons, Worker.holds, List.count_nil] at hp ⊢
    omega
  | publish buffer hw =>
    refine Inv.setWorker (by exact hw) _ (fun t => ?_) h.once h.waiting h.returned
      (fun _ _ he => nomatch he) fun he => nomatch he
    have hp := h.placed t
    unfold occurrences at hp ⊢
    simp only [List.count_append, Worker.holds, List.count_nil] at hp ⊢
    omega
  | notifyAll hw =>
    have hw' : (s.workers.map Worker.wake)[i]? = some (.notifying : Worker Task) := by
      rw [List.getElem?_map, hw]
      rfl
    refine Inv.setWorker hw' _ (fun t => ?_) h.once h.waiting (fun t c hmem => ?_)
      (fun _ _ he => nomatch he) fun he => nomatch he
    · have hp := h.placed t
      unfold occurrences at hp ⊢
      dsimp only
      rw [flatMap_wake]
      exact congrArg (· + 0) hp
    · obtain ⟨w, hmem, heq⟩ := List.mem_map.mp hmem
      exact h.returned t c (Worker.wake_eq_returned heq ▸ hmem)
  | leave hw =>
    refine Inv.setWorker (by exact hw) _ (fun t => ?_) h.once h.waiting h.returned
      (fun _ _ he => nomatch he) fun he => nomatch he
    exact h.placed t

omit [DecidableEq Task] in
theorem grow_eq (s : TaskScheduler Task) :
    s.grow.taskQueue = s.taskQueue ∧ s.grow.taskContinuationQueue = s.taskContinuationQueue ∧
      s.grow.taskContinuation = s.taskContinuation ∧ s.grow.done = s.done ∧
      s.grow.submitted = s.submitted ∧
      (s.grow.workers = s.workers ∨ s.grow.workers = s.workers ++ [.idle]) := by
  unfold grow
  split
  · exact ⟨rfl, rfl, rfl, rfl, rfl, Or.inr rfl⟩
  · exact ⟨rfl, rfl, rfl, rfl, rfl, Or.inl rfl⟩

omit [DecidableEq Task] in
/-- A notification changes nobody's tasks, and somebody is awake afterwards. -/
theorem NotifyOne.spec {ws ws' : List (Worker Task)} (h : NotifyOne ws ws') (hne : ws ≠ []) :
    (∀ w ∈ ws', w = .idle ∨ w ∈ ws) ∧ ws' ≠ [] ∧ ∃ w ∈ ws', w ≠ .asleep := by
  cases h with
  | woken i h =>
    have hi : i < ws.length := (List.getElem?_eq_some_iff.mp h).1
    refine ⟨fun w hw => (List.mem_or_eq_of_mem_set hw).symm, fun hnil => ?_,
      .idle, List.mem_set hi _, fun he => nomatch he⟩
    have hlen : (ws.set i .idle).length = 0 := congrArg List.length hnil
    rw [List.length_set] at hlen
    omega
  | missed h =>
    obtain ⟨w, hw⟩ := List.exists_mem_of_ne_nil ws hne
    exact ⟨fun w hw => Or.inr hw, hne, w, hw, h w hw⟩

theorem NotifyOne.count_holds {ws ws' : List (Worker Task)} (h : NotifyOne ws ws') (t : Task) :
    (ws'.flatMap Worker.holds).count t = (ws.flatMap Worker.holds).count t := by
  cases h with
  | woken i h => exact count_flatMap_set h Worker.holds .idle t
  | missed h => rfl

theorem Inv.init (maxThreads : Nat) : Inv needs (init maxThreads : TaskScheduler Task) := by
  refine ⟨fun t => rfl, List.nodup_nil, fun p hp => absurd hp List.not_mem_nil, fun t c hmem => ?_,
    List.cons_ne_nil _ _, fun _ => ⟨rfl, rfl⟩⟩
  simp [TaskScheduler.init] at hmem

/-- **A step.** -/
theorem Inv.step (h : Inv needs s) (hs : Step needs s s') : Inv needs s' := by
  cases hs with
  | worker i s' hw => exact h.workerStep hw
  | spuriousWake i hw => exact h.move hw _ rfl (fun _ _ he => nomatch he) fun he => nomatch he
  | submit task hnew ws hw =>
    obtain ⟨hq, hcq, hc, hd, hsub, hworkers⟩ := s.grow_eq
    have hne : s.grow.workers ≠ [] := by
      rcases hworkers with he | he <;> rw [he]
      · exact h.workers
      · exact List.concat_ne_nil _ _
    have hmem : ∀ w ∈ s.grow.workers, w = .idle ∨ w ∈ s.workers := by
      intro w hw
      rcases hworkers with he | he <;> rw [he] at hw
      · exact Or.inr hw
      · exact (List.mem_append.mp hw).symm.imp_left List.mem_singleton.mp
    have hgrown : ∀ t, (s.grow.workers.flatMap Worker.holds).count t =
        (s.workers.flatMap Worker.holds).count t := by
      intro t
      rcases hworkers with he | he <;> rw [he]
      simp [Worker.holds]
    obtain ⟨hws, hws', w, hwmem, hwne⟩ := hw.spec hne
    refine ⟨fun t => ?_, ?_, fun p hp => ?_, fun t c hret => ?_, hws',
      fun hall => absurd (hall w hwmem) hwne⟩
    · have hp := h.placed t
      unfold occurrences at hp ⊢
      dsimp only
      rw [hcq, hc, hd, hw.count_holds, hgrown, List.count_append, List.count_append]
      omega
    · exact List.nodup_append.mpr ⟨h.once, List.nodup_singleton _, by
        intro a ha b hb heq
        exact hnew (List.mem_singleton.mp hb ▸ heq ▸ ha)⟩
    · dsimp only at hp ⊢
      rw [hc] at hp
      rw [hd]
      obtain ⟨hnd, hneeds, hin⟩ := h.waiting p hp
      exact ⟨hnd, hneeds, List.mem_append_left _ hin⟩
    · have hold : (.returned t c) ∈ s.workers := by
        rcases hws _ hret with he | hin
        · cases he
        · exact (hmem _ hin).resolve_left fun he => nomatch he
      exact (h.returned t c hold).imp_right fun hr => ⟨hr.1, List.mem_append_left _ hr.2⟩

theorem inv_reachable (h : Reachable needs s) : Inv needs s := by
  obtain ⟨maxThreads, hrun⟩ := h
  induction hrun with
  | refl => exact Inv.init maxThreads
  | tail _ hs ih => exact ih.step hs

/-! ## When no worker can go on -/

/-- A worker that is not asleep can take a step. -/
theorem exists_workerStep {w : Worker Task} (hw : s.workers[i]? = some w)
    (hne : w ≠ .asleep) : ∃ s', WorkerStep needs s i s' := by
  cases w with
  | asleep => exact absurd rfl hne
  | idle =>
    cases hc : s.taskContinuationQueue with
    | cons task rest => exact ⟨_, .takeContinuation task rest hw hc⟩
    | nil =>
      cases hq : s.taskQueue with
      | cons task rest => exact ⟨_, .take task rest hw hc hq⟩
      | nil => exact ⟨_, .wait hw hq hc⟩
  | taken task => exact ⟨_, .enter task hw⟩
  | running task => exact ⟨_, .run task task hw (Or.inl rfl)⟩
  | returned task continuation =>
    by_cases heq : continuation = task
    · cases heq
      exact ⟨_, .finish _ _ hw (List.Perm.refl _)⟩
    · cases hd : s.done continuation with
      | true => exact ⟨_, .spurious task continuation hw heq hd⟩
      | false => exact ⟨_, .register task continuation hw heq hd⟩
  | finished buffer => exact ⟨_, .publish buffer hw⟩
  | notifying => exact ⟨_, .notifyAll hw⟩
  | leaving => exact ⟨_, .leave hw⟩

/-- When all workers are asleep, a task that is not done waits for another one. -/
theorem Inv.waits (h : Inv needs s) (hall : ∀ w ∈ s.workers, w = .asleep) {t : Task}
    (ht : t ∈ s.submitted) (hd : s.done t = false) :
    ∃ c ∈ s.submitted, s.done c = false ∧ needs t c := by
  obtain ⟨hq, hcq⟩ := h.awake hall
  have hholds : (s.workers.flatMap Worker.holds).count t = 0 := by
    refine List.count_eq_zero.mpr fun hmem => ?_
    obtain ⟨w, hw, hin⟩ := List.mem_flatMap.mp hmem
    rw [hall w hw] at hin
    exact List.not_mem_nil hin
  have hp := h.placed t
  unfold occurrences at hp
  rw [hq, hcq, hholds, hd, List.count_eq_one_of_mem h.once ht] at hp
  have hpos : 0 < (s.taskContinuation.map Prod.snd).count t := by
    simp only [List.count_nil, Bool.toNat_false] at hp
    omega
  obtain ⟨p, hmem, heq⟩ := List.mem_map.mp (List.count_pos_iff.mp hpos)
  obtain ⟨hnd, hneeds, hin⟩ := h.waiting p hmem
  exact ⟨p.1, hin, hnd, heq ▸ hneeds⟩

omit [DecidableEq Task] in
/-- Finitely many tasks that each need another one of them need each other in a cycle. -/
theorem exists_cycle {ts : Set Task} (hfin : ts.Finite) {t : Task} (ht : t ∈ ts)
    (hneeds : ∀ a ∈ ts, ∃ c ∈ ts, needs a c) : ∃ a, Relation.TransGen needs a a := by
  by_contra hno
  rw [not_exists] at hno
  have : Finite ts := hfin
  let after : ts → ts → Prop := fun a b => Relation.TransGen needs b a
  have : IsTrans ts after := ⟨fun a b c hab hbc => hbc.trans hab⟩
  have : Std.Irrefl after := ⟨fun a => hno a⟩
  have hwf := Finite.wellFounded_of_trans_of_irrefl after
  -- the last task of the order needs another one
  obtain ⟨a, -, hmin⟩ := hwf.has_min Set.univ ⟨⟨t, ht⟩, Set.mem_univ _⟩
  obtain ⟨c, hc, hac⟩ := hneeds a a.2
  exact hmin ⟨c, hc⟩ (Set.mem_univ _) (.single hac)

/-- **Every task is in one place**, a task waits only for tasks that are not done, and when no
worker can take a step every task is done. -/
theorem tasks_safe (hacyclic : ∀ t, ¬ Relation.TransGen needs t t) (h : Reachable needs s) :
    (∀ t ∈ s.submitted, s.occurrences t = 1) ∧
      (∀ c t, (c, t) ∈ s.taskContinuation → s.done c = false) ∧
      ((∀ i s', ¬ WorkerStep needs s i s') → ∀ t ∈ s.submitted, s.done t = true) := by
  have hinv := inv_reachable h
  refine ⟨fun t ht => ?_, fun c t hct => (hinv.waiting _ hct).1, fun hstuck t ht => ?_⟩
  · rw [hinv.placed]
    exact List.count_eq_one_of_mem hinv.once ht
  · have hall : ∀ w ∈ s.workers, w = .asleep := by
      intro w hw
      by_contra hne
      obtain ⟨i, hi⟩ := List.getElem?_of_mem hw
      obtain ⟨s', hs⟩ := exists_workerStep hi hne
      exact hstuck i s' hs
    by_contra hd
    rw [Bool.not_eq_true] at hd
    have hfin : {a | a ∈ s.submitted ∧ s.done a = false}.Finite :=
      (List.finite_toSet s.submitted).subset fun a ha => ha.1
    obtain ⟨a, ha⟩ := exists_cycle hfin ⟨ht, hd⟩ fun a ha => by
      obtain ⟨c, hc, hcd, hac⟩ := hinv.waits hall ha.1 ha.2
      exact ⟨c, ⟨hc, hcd⟩, hac⟩
    exact hacyclic a ha

/-! ## A pipeline that waits for its shader -/

/-- Task 1 needs task 0. -/
def pipelineNeeds (t c : Nat) : Prop := t = 1 ∧ c = 0

/-- A worker has taken task 0, and another one has registered task 1 in its waiting list. -/
def pipelineWaits : TaskScheduler Nat where
  taskContinuation := [(0, 1)]
  workers := [.taken 0, .leaving]
  running := 1
  maxThreads := 4
  submitted := [0, 1]

theorem reachable_pipelineWaits : Reachable pipelineNeeds pipelineWaits := by
  refine ⟨4, ?_⟩
  have h₁ : Relation.ReflTransGen (Step pipelineNeeds) (init 4) _ :=
    Relation.ReflTransGen.refl.tail (.submit 0 (by decide) _ (.missed (by decide)))
  have h₂ := h₁.tail (.submit 1 (by decide) _ (.missed (by decide)))
  have h₃ := h₂.tail (.worker 0 _ (.take 0 [1] rfl rfl rfl))
  have h₄ := h₃.tail (.worker 1 _ (.take 1 [] rfl rfl rfl))
  have h₅ := h₄.tail (.worker 1 _ (.enter 1 rfl))
  have h₆ := h₅.tail (.worker 1 _ (.run 1 0 rfl (Or.inr ⟨⟨rfl, rfl⟩, by decide⟩)))
  exact h₆.tail (.worker 1 _ (.register 1 0 rfl (by decide) rfl))

theorem tasks_safe_pipelineWaits :
    (∀ t ∈ pipelineWaits.submitted, pipelineWaits.occurrences t = 1) ∧
      (∀ c t, (c, t) ∈ pipelineWaits.taskContinuation → pipelineWaits.done c = false) ∧
      ((∀ i s', ¬ WorkerStep pipelineNeeds pipelineWaits i s') →
        ∀ t ∈ pipelineWaits.submitted, pipelineWaits.done t = true) := by
  refine tasks_safe (fun t ht => ?_) reachable_pipelineWaits
  obtain ⟨_, ⟨hone, -⟩, -⟩ := Relation.TransGen.head'_iff.mp ht
  obtain ⟨_, -, -, hzero⟩ := Relation.TransGen.tail'_iff.mp ht
  omega

end TaskScheduler

end Dxmt
