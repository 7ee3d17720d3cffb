import Dxmt.QueueOrder

/-!
# No wait is lost, and no thread waits for ever

A wait that is armed has its callback on its way (`WakeInv`): the fence has it, a thread listens for
it, or a thread is about to run it. So a queue never stands still with its fence at the value.
-/

namespace Dxmt

namespace QueueFences

open Dxmt.QueueFences.CommandQueue

variable {R : Type}

namespace PendingOperation

variable {p : PendingOperation R} {fence value : Nat}

theorem complete_of_wait (h : p.operation = .wait fence value) :
    p.complete fence value = { p with waitCompleted := true } := by
  unfold complete
  rw [h]
  exact if_pos ⟨rfl, rfl⟩

theorem complete_of_ne (h : p.operation ≠ .wait fence value) : p.complete fence value = p := by
  unfold complete
  split
  next f v hop =>
    rw [if_neg]
    rintro ⟨rfl, rfl⟩
    exact h hop
  next => rfl

end PendingOperation

namespace CommandQueue

/-- The callback that the holder of `mutex_` adds. -/
def adds (q : CommandQueue R) : Option WaitCallback :=
  match q.phase with
  | some (.adding c) => some c
  | some (.arming c) => some c
  | _ => none

theorem adds_of_phase {q : CommandQueue R} {phase : Option Phase} (h : q.phase = phase) :
    q.adds = ({ phase } : CommandQueue R).adds := by
  unfold adds
  rw [h]

/-- A drain adds no callback. -/
theorem adds_drain (q : CommandQueue R) : q.drainPendingOperationsLocked.adds = none := by
  unfold drainPendingOperationsLocked
  split <;> rfl

end CommandQueue

/-- The frame runs a callback. -/
def Frame.isCallback : Frame R → Bool
  | .callback _ => true
  | _ => false

namespace System

variable {s s' : System R} {frame : Frame R} {todo : List (Frame R)} {c : WaitCallback}

/-! ## The callbacks there are -/

/-- Somebody will still deliver the callback: a thread, a fence or the listener. -/
inductive Knows (s : System R) (c : WaitCallback) : Prop where
  | todo (h : Runs s.frames c)
  | pending {f : Nat} {p : PendingValue WaitCallback} (h : p ∈ (s.fences f).pendingCallbacks)
      (hc : p.target = c)
  | listening (h : c ∈ s.listening)
  | fired (h : c ∈ s.fired)
  | adds (h : (s.queues c.queue).adds = some c)

/-- Callbacks are numbered, and their queues have waited. -/
def Known (s : System R) (c : WaitCallback) : Prop :=
  c.id < s.nextId ∧ (s.queues c.queue).hasWaited = true

theorem setQueue_queues (s : System R) (queue : Nat) (q : CommandQueue R) (i : Nat) :
    (s.setQueue queue q).queues i = if i = queue then q else s.queues i :=
  Function.update_apply ..

/-- A step does not take back that a queue has waited. -/
theorem FrameStep.hasWaited (hs : FrameStep s frame s' todo) (i : Nat)
    (h : (s.queues i).hasWaited = true) : (s'.queues i).hasWaited = true := by
  have hset : ∀ queue q, ((s.queues queue).hasWaited = true → q.hasWaited = true) →
      ((s.setQueue queue q).queues i).hasWaited = true := by
    intro queue q hq
    rw [setQueue_queues]
    split
    next hi => exact hq (hi ▸ h)
    next => exact h
  have hdrain : ∀ q : CommandQueue R, q.drainPendingOperationsLocked.hasWaited = q.hasWaited := by
    intro q
    unfold drainPendingOperationsLocked
    split <;> rfl
  cases hs with
  | enqueue => exact hset _ _ fun hq =>
      (hdrain _).trans ((congrArg (· || _) hq).trans (Bool.true_or _))
  | callback => exact hset _ _ fun hq => (hdrain _).trans hq
  | signal => exact h
  | signalValue => exact h
  | setCompletedValue => exact h
  | ranOnce => exact h
  | runOnce => exact h
  | _ => exact hset _ _ id

theorem FrameStep.nextId (hs : FrameStep s frame s' todo) : s.nextId ≤ s'.nextId := by
  cases hs with
  | arm => exact Nat.le_succ _
  | _ => exact le_rfl

/-- A queue that changes makes at most its own callback known. -/
theorem knows_setQueue {queue : Nat} {q : CommandQueue R} (h : Knows (s.setQueue queue q) c) :
    Knows s c ∨ q.adds = some c := by
  cases h with
  | todo h => exact .inl (.todo h)
  | pending h hc => exact .inl (.pending h hc)
  | listening h => exact .inl (.listening h)
  | fired h => exact .inl (.fired h)
  | adds h =>
    rw [setQueue_queues] at h
    split at h
    next => exact .inr h
    next => exact .inl (.adds h)

theorem knows_storeLocked {fence value : Nat} (h : Knows (s.storeLocked fence value) c) :
    Knows s c := by
  cases h with
  | todo h => exact .todo h
  | @pending f p h hc =>
    change p ∈ (Function.update s.fences fence _ f).pendingCallbacks at h
    rw [Function.update_apply] at h
    split at h
    next => exact .pending (List.mem_of_mem_filter h) hc
    next => exact .pending h hc
  | listening h => exact .listening h
  | fired h => exact .fired h
  | adds h => exact .adds h

theorem knows_signalEvent {fence value : Nat} (h : Knows (s.signalEvent fence value) c) :
    Knows s c := by
  cases h with
  | todo h => exact .todo h
  | @pending f p h hc =>
    change p ∈ (Function.update s.fences fence _ f).pendingCallbacks at h
    rw [Function.update_apply] at h
    split at h
    next => exact .pending h hc
    next => exact .pending h hc
  | listening h => exact .listening h
  | fired h => exact .fired h
  | adds h => exact .adds h

/-- What is taken from a fence was registered there. -/
theorem knows_completedCallbacks {fence value : Nat}
    (h : Runs (s.completedCallbacks fence value) c) : Knows s c := by
  obtain h | h := h
  · obtain ⟨c', hc', heq⟩ := List.mem_map.mp h
    obtain rfl : c' = c := by cases heq; rfl
    obtain ⟨p, hp, hpc⟩ := List.mem_map.mp hc'
    exact .pending (List.mem_of_mem_filter hp) hpc
  · obtain ⟨c', -, heq⟩ := List.mem_map.mp h
    cases heq

/-- What is known depends on the frames, the fences, the listener and the callbacks being added. -/
theorem Knows.congr (h : Knows s' c) (hframes : s'.frames = s.frames)
    (hfences : s'.fences = s.fences) (hlistening : s'.listening = s.listening)
    (hfired : s'.fired = s.fired) (hqueues : s'.queues = s.queues) : Knows s c := by
  cases h with
  | todo h => exact .todo (hframes ▸ h)
  | pending h hc => exact .pending (hfences ▸ h) hc
  | listening h => exact .listening (hlistening ▸ h)
  | fired h => exact .fired (hfired ▸ h)
  | adds h => exact .adds (hqueues ▸ h)

/-- A fence that is given a callback makes only this one known. -/
theorem knows_pushCallback {c' : WaitCallback} (h : Knows { s with
    fences := Function.update s.fences c'.fence
      ((s.fences c'.fence).pushCallback c'.value c') } c) : Knows s c ∨ c' = c := by
  cases h with
  | todo h => exact .inl (.todo h)
  | @pending f p h hc =>
    change p ∈ (Function.update s.fences c'.fence _ f).pendingCallbacks at h
    rw [Function.update_apply] at h
    split at h
    next =>
      obtain h | h := List.mem_append.mp h
      · exact .inl (.pending h hc)
      · obtain rfl := List.mem_singleton.mp h
        exact .inr hc
    next => exact .inl (.pending h hc)
  | listening h => exact .inl (.listening h)
  | fired h => exact .inl (.fired h)
  | adds h => exact .inl (.adds h)

/-- The same for the listener. -/
theorem knows_listen {c' : WaitCallback}
    (h : Knows { s with listening := s.listening ++ [c'] } c) : Knows s c ∨ c' = c := by
  cases h with
  | todo h => exact .inl (.todo h)
  | pending h hc => exact .inl (.pending h hc)
  | listening h =>
    obtain h | h := List.mem_append.mp h
    · exact .inl (.listening h)
    · exact .inr (List.mem_singleton.mp h).symm
  | fired h => exact .inl (.fired h)
  | adds h => exact .inl (.adds h)

/-- The same for a callback that is marked as run. -/
theorem knows_fire {c' : WaitCallback} (h : Knows { s with fired := c' :: s.fired } c) :
    Knows s c ∨ c' = c := by
  cases h with
  | todo h => exact .inl (.todo h)
  | pending h hc => exact .inl (.pending h hc)
  | listening h => exact .inl (.listening h)
  | fired h =>
    obtain h | h := List.mem_cons.mp h
    · exact .inr h.symm
    · exact .inl (.fired h)
  | adds h => exact .inl (.adds h)

/-- The queue that adds a callback is the callback's own, so it makes the callback known. -/
theorem knows_of_phase {queue : Nat} {phase : Phase} (hq : QueueInv queue (s.queues queue))
    (hphase : (s.queues queue).phase = some phase) (h : phase = .adding c ∨ phase = .arming c) :
    Knows s c := by
  obtain rfl | rfl := h
  · have hqueue := (hq.adding c (.inl hphase)).1
    exact .adds (hqueue ▸ adds_of_phase hphase)
  · have hqueue := (hq.adding c (.inr hphase)).1
    exact .adds (hqueue ▸ adds_of_phase hphase)

/-- A step of a thread delivers no callback that was not known. -/
theorem FrameStep.knows (hs : FrameStep s frame s' todo) (hq : ∀ i, QueueInv i (s.queues i))
    (hframe : frame ∈ s.frames) (h : Runs todo c ∨ Knows s' c) : Knows s c ∨ Known s' c := by
  have hlocked : ∀ queue, ¬Runs ([.locked queue] : List (Frame R)) c := fun _ => not_runs_locked _ _
  -- nearly every step does not add a callback
  have hset : ∀ {queue : Nat} {q : CommandQueue R}, Knows (s.setQueue queue q) c → q.adds = none →
      Knows s c ∨ Known s' c := fun h hq =>
    .inl ((knows_setQueue h).resolve_right fun h => nomatch hq.symm.trans h)
  cases hs with
  | enqueue hphase => exact hset (h.resolve_left (hlocked _)) (adds_drain _)
  | empty hphase hp => exact hset (h.resolve_left (hlocked _)) rfl
  | execute hphase hp hop => exact hset (h.resolve_left (hlocked _)) (adds_of_phase hphase)
  | signalNow hphase hp hop hwaited =>
    obtain h | h := h
    · obtain h | h := h <;>
        simp only [List.mem_cons, List.not_mem_nil, reduceCtorEq, or_self] at h
    · exact hset h rfl
  | @submitSignal queue p ps fence value hphase hp hop =>
    have hknows : Knows (s.setQueue queue ((s.queues queue).submit p.operation)) c :=
      (h.resolve_left (hlocked _)).congr rfl rfl rfl rfl rfl
    exact hset hknows (adds_of_phase hphase)
  | stop hphase hp hop hcompleted harmed => exact hset (h.resolve_left (hlocked _)) rfl
  | @arm queue p ps fence value hphase hp hop hcompleted harmed =>
    have hknows : Knows (s.setQueue queue
        { (s.queues queue).stopDraining (.adding ⟨s.nextId, queue, fence, value⟩) with
          pendingOperations :=
            { p with waitCallbackArmed := true } :: (s.queues queue).pendingOperations.tail }) c :=
      (h.resolve_left (hlocked _)).congr rfl rfl rfl rfl rfl
    obtain hknows | hadds := knows_setQueue hknows
    · exact .inl hknows
    · obtain rfl := Option.some.inj hadds
      refine .inr ⟨Nat.lt_succ_self _, ?_⟩
      have hwaited := (hq queue).waited p (hp ▸ List.mem_cons_self) fence value hop
      rw [setQueue_queues, if_pos rfl]
      exact hwaited
  | pass hphase hp hop hpass => exact hset (h.resolve_left (hlocked _)) (adds_of_phase hphase)
  | signaled hphase => exact hset (h.resolve_left (hlocked _)) rfl
  | @runNow queue c' hphase hreached =>
    obtain h | h := h
    · have hcc : c = c' := by
        obtain h | h := h <;> simp only [List.mem_cons, List.not_mem_nil, reduceCtorEq, or_false,
          Frame.runOnce.injEq] at h
        exact h
      subst hcc
      exact .inl (knows_of_phase (hq queue) hphase (.inl rfl))
    · exact hset h rfl
  | @add queue c' hphase hreached =>
    have hold : Knows s c' := knows_of_phase (hq queue) hphase (.inl rfl)
    obtain hknows | rfl :=
      knows_pushCallback (s := s.setQueue queue _) (h.resolve_left (hlocked _))
    · obtain hknows | hadds := knows_setQueue hknows
      · exact .inl hknows
      · obtain rfl := Option.some.inj hadds
        exact .inl hold
    · exact .inl hold
  | @listen queue c' hphase =>
    obtain hknows | rfl := knows_listen (s := s.setQueue queue _) (h.resolve_left (hlocked _))
    · exact hset hknows rfl
    · exact .inl (knows_of_phase (hq queue) hphase (.inr rfl))
  | leave hphase => exact hset (h.resolve_left (by rintro (h | h) <;> cases h)) rfl
  | @signal fence value =>
    obtain h | h := h
    · suffices hcollected : Runs (s.completedCallbacks fence value) c from
        .inl (knows_completedCallbacks hcollected)
      obtain h | h := h
      · exact .inl ((List.mem_cons.mp h).resolve_left nofun)
      · exact .inr ((List.mem_cons.mp h).resolve_left nofun)
    · exact .inl (knows_storeLocked h)
  | @signalValue fence value =>
    exact .inl (knows_signalEvent (h.resolve_left (by rintro (h | h) <;> cases h)))
  | setCompletedValue =>
    obtain h | h := h
    · exact .inl (knows_completedCallbacks h)
    · exact .inl (knows_storeLocked h)
  | ranOnce hfired => exact .inl (h.resolve_left (by rintro (h | h) <;> cases h))
  | @runOnce c' hfired =>
    obtain h | h := h
    · have hcc : c = c' := by
        obtain h | h := h <;> simp only [List.mem_cons, List.not_mem_nil, reduceCtorEq, or_false,
          Frame.callback.injEq] at h
        exact h
      exact .inl (.todo (.inl (hcc ▸ hframe)))
    · obtain hknows | rfl := knows_fire h
      · exact .inl hknows
      · exact .inl (.todo (.inl hframe))
  | callback hphase => exact hset (h.resolve_left (hlocked _)) (adds_drain _)

/-- An event delivers no callback that was not known. -/
theorem StepCases.knows (hs : StepCases s s') (hq : ∀ i, QueueInv i (s.queues i))
    (h : ∀ c, Knows s c → Known s c) : ∀ c, Knows s' c → Known s' c := by
  intro c hc
  cases hs with
  | @spawn frame hframe hlocked =>
    cases hc with
    | todo hc =>
      refine h c (.todo ?_)
      obtain hc | hc := hc
      · exact .inl ((mem_frames_spawn.mp hc).resolve_right (hframe c).1.symm)
      · exact .inr ((mem_frames_spawn.mp hc).resolve_right (hframe c).2.symm)
    | pending hc ht => exact h c (.pending hc ht)
    | listening hc => exact h c (.listening hc)
    | fired hc => exact h c (.fired hc)
    | adds hc => exact h c (.adds hc)
  | @thread i frame rest s₁ todo hi hframe =>
    have hframes : s₁.frames = s.frames := congrArg List.flatten hframe.threads_eq
    have hc' : (Runs todo c ∨ Knows s₁ c) ∨ Known s₁ c := by
      cases hc with
      | todo hc =>
        refine .inl ?_
        obtain hc | hc := hc
        · exact (mem_frames_set hi hc).imp .inl fun hc => .todo (.inl (hframes ▸ hc))
        · exact (mem_frames_set hi hc).imp .inr fun hc => .todo (.inr (hframes ▸ hc))
      | pending hc ht => exact .inl (.inr (.pending hc ht))
      | listening hc => exact .inl (.inr (.listening hc))
      | fired hc => exact .inl (.inr (.fired hc))
      | adds hc => exact .inl (.inr (.adds hc))
    obtain hc' | hc' := hc'
    · obtain hc' | hc' := hframe.knows hq (mem_frames hi List.mem_cons_self) hc'
      · obtain ⟨hid, hwaited⟩ := h c hc'
        exact ⟨hid.trans_le hframe.nextId, hframe.hasWaited _ hwaited⟩
      · exact hc'
    · exact hc'
  | @execute fence value rest hsignals =>
    cases hc with
    | todo hc => exact h c (.todo hc)
    | pending hc ht => exact h c (knows_signalEvent (.pending hc ht))
    | listening hc => exact h c (.listening hc)
    | fired hc => exact h c (.fired hc)
    | adds hc => exact h c (.adds hc)
  | @complete fence value rest hsignals =>
    cases hc with
    | todo hc =>
      refine h c (.todo ?_)
      obtain hc | hc := hc
      · exact .inl ((mem_frames_spawn.mp hc).resolve_right nofun)
      · exact .inr ((mem_frames_spawn.mp hc).resolve_right nofun)
    | pending hc ht => exact h c (.pending hc ht)
    | listening hc => exact h c (.listening hc)
    | fired hc => exact h c (.fired hc)
    | adds hc => exact h c (.adds hc)
  | @notify c' hlistens hle =>
    cases hc with
    | todo hc =>
      obtain hc | hc := hc
      · obtain hc | heq := mem_frames_spawn.mp hc
        · exact h c (.todo (.inl hc))
        · obtain rfl : c = c' := by cases heq; rfl
          exact h c (.listening hlistens)
      · exact h c (.todo (.inr ((mem_frames_spawn.mp hc).resolve_right nofun)))
    | pending hc ht => exact h c (.pending hc ht)
    | listening hc => exact h c (.listening (List.mem_of_mem_erase hc))
    | fired hc => exact h c (.fired hc)
    | adds hc => exact h c (.adds hc)

/-- A callback that somebody will deliver belongs to a wait. -/
theorem Reachable.known {initial : Nat → Nat} (h : Reachable initial s) :
    ∀ c, Knows s c → Known s c := by
  induction h with
  | create =>
    rintro c (hc | hc | hc | hc | hc)
    · exact hc.elim nofun nofun
    · exact nomatch hc
    · exact nomatch hc
    · exact nomatch hc
    · exact nomatch hc
  | step h hs ih => exact (step_cases hs).knows h.queueInv ih

/-! ## The callbacks on their way -/

/-- The callback of a wait runs some time. -/
inductive InFlight (s : System R) (c : WaitCallback) : Prop where
  | running (h : .callback c ∈ s.frames)
  | ready (hfired : c ∉ s.fired) (h : .runOnce c ∈ s.frames)
  | adding (hfired : c ∉ s.fired) (h : (s.queues c.queue).phase = some (.adding c))
  | pending {p : PendingValue WaitCallback} (hfired : c ∉ s.fired)
      (h : p ∈ (s.fences c.fence).pendingCallbacks) (ht : p.target = c)
      (hlistens : c ∈ s.listening ∨ (s.queues c.queue).phase = some (.arming c))

/-- A callback on its way stays on its way. -/
theorem InFlight.mono (h : InFlight s c)
    (hcallback : .callback c ∈ s.frames → .callback c ∈ s'.frames)
    (hrunOnce : .runOnce c ∈ s.frames → .runOnce c ∈ s'.frames)
    (hfired : c ∈ s'.fired → c ∈ s.fired)
    (hphase : ∀ phase, phase = .adding c ∨ phase = .arming c →
      (s.queues c.queue).phase = some phase → (s'.queues c.queue).phase = some phase)
    (hpending : (s.fences c.fence).pendingCallbacks ⊆ (s'.fences c.fence).pendingCallbacks)
    (hlistening : c ∈ s.listening → c ∈ s'.listening) : InFlight s' c := by
  cases h with
  | running h => exact .running (hcallback h)
  | ready hf h => exact .ready (fun hc => hf (hfired hc)) (hrunOnce h)
  | adding hf h => exact .adding (fun hc => hf (hfired hc)) (hphase _ (.inl rfl) h)
  | pending hf h ht hl =>
    exact .pending (fun hc => hf (hfired hc)) (hpending h) ht
        (hl.imp hlistening (hphase _ (.inr rfl)))

/-- Another part of `mutex_` is done. -/
theorem setQueue_phase {queue i : Nat} {q : CommandQueue R} {phase : Option Phase} {phase' : Phase}
    (hphase : (s.queues queue).phase = phase) (hne : phase ≠ some phase')
    (h : (s.queues i).phase = some phase') :
    ((s.setQueue queue q).queues i).phase = some phase' := by
  rw [setQueue_queues]
  split
  next hi => exact absurd (hphase.symm.trans (hi ▸ h)) hne
  next => exact h

theorem mem_update_pendingCallbacks {fence : Nat} {f : FenceImpl Empty WaitCallback}
    (hf : (s.fences fence).pendingCallbacks ⊆ f.pendingCallbacks) (i : Nat) :
    (s.fences i).pendingCallbacks ⊆ (Function.update s.fences fence f i).pendingCallbacks := by
  rw [Function.update_apply]
  split
  next hi => exact hi ▸ hf
  next => exact List.Subset.refl _

/-- A callback that a store collects is ready, and the others stay. -/
theorem InFlight.storeLocked {fence value : Nat} (h : InFlight s c)
    (hcallback : .callback c ∈ s.frames → .callback c ∈ s'.frames)
    (hrunOnce : .runOnce c ∈ s.frames → .runOnce c ∈ s'.frames)
    (hcollected : ∀ x ∈ s.completedCallbacks fence value, x ∈ s'.frames)
    (hfired : s'.fired = s.fired) (hqueues : s'.queues = s.queues)
    (hfences : s'.fences = (s.storeLocked fence value).fences)
    (hlistening : s'.listening = s.listening) : InFlight s' c := by
  cases h with
  | running h => exact .running (hcallback h)
  | ready hf h => exact .ready (hfired ▸ hf) (hrunOnce h)
  | adding hf h => exact .adding (hfired ▸ hf) (hqueues ▸ h)
  | @pending p hf h ht hl =>
    by_cases hi : c.fence = fence
    · by_cases hlt : value < p.value
      · refine .pending (hfired ▸ hf) ?_ ht (hlistening ▸ hqueues ▸ hl)
        rw [hfences]
        change p ∈ (Function.update s.fences fence _ c.fence).pendingCallbacks
        rw [Function.update_apply, if_pos hi]
        exact List.mem_filter.mpr ⟨hi ▸ h, decide_eq_true hlt⟩
      · refine .ready (hfired ▸ hf) (hcollected _ (List.mem_map_of_mem ?_))
        rw [← ht]
        exact List.mem_map_of_mem (List.mem_filter.mpr ⟨hi ▸ h, decide_eq_true hlt⟩)
    · refine .pending (hfired ▸ hf) ?_ ht (hlistening ▸ hqueues ▸ hl)
      rw [hfences]
      change p ∈ (Function.update s.fences fence _ c.fence).pendingCallbacks
      rwa [Function.update_apply, if_neg hi]

section Own

variable {threads : List (List (Frame R))} {q : CommandQueue R}

/-- The fence has reached the value: the queue's thread is about to run the callback. -/
theorem InFlight.runNow (h : InFlight s c) (hphase : (s.queues c.queue).phase = some (.adding c))
    (hkeep : ∀ x ∈ s.frames, x ≠ .locked c.queue → x ∈ threads.flatten)
    (hnew : .runOnce c ∈ threads.flatten) :
    InFlight { s.setQueue c.queue q with threads := threads } c := by
  cases h with
  | running h => exact .running (hkeep _ h nofun)
  | ready hf h => exact .ready hf (hkeep _ h nofun)
  | adding hf h => exact .ready hf hnew
  | pending hf h ht hl =>
    refine .pending hf h ht (.inl (hl.resolve_right fun harming => ?_))
    cases hphase.symm.trans harming

/-- The fence has not reached the value: it takes the callback, and the queue goes on to listen. -/
theorem InFlight.add (h : InFlight s c) (hphase : (s.queues c.queue).phase = some (.adding c))
    (hq : q.phase = some (.arming c))
    (hkeep : ∀ x ∈ s.frames, x ≠ .locked c.queue → x ∈ threads.flatten) :
    InFlight { s.setQueue c.queue q with
      fences := Function.update s.fences c.fence ((s.fences c.fence).pushCallback c.value c)
      threads := threads } c := by
  have hsub : (s.fences c.fence).pendingCallbacks ⊆
      ((s.fences c.fence).pushCallback c.value c).pendingCallbacks :=
    List.subset_append_left ..
  cases h with
  | running h => exact .running (hkeep _ h nofun)
  | ready hf h => exact .ready hf (hkeep _ h nofun)
  | adding hf h =>
    refine .pending (p := ⟨c.value, c⟩) hf ?_ rfl (.inr ?_)
    · change _ ∈ (Function.update s.fences c.fence _ c.fence).pendingCallbacks
      rw [Function.update_self]
      exact List.mem_append_right _ List.mem_cons_self
    · change ((s.setQueue c.queue _).queues c.queue).phase = _
      rw [setQueue_queues, if_pos rfl]
      exact hq
  | pending hf h ht hl =>
    refine .pending hf (mem_update_pendingCallbacks hsub _ h) ht
      (.inl (hl.resolve_right fun harming => ?_))
    cases hphase.symm.trans harming

/-- A thread listens for the callback that the fence has. -/
theorem InFlight.listen (h : InFlight s c) (hphase : (s.queues c.queue).phase = some (.arming c))
    (hkeep : ∀ x ∈ s.frames, x ≠ .locked c.queue → x ∈ threads.flatten) :
    InFlight { s.setQueue c.queue q with
      listening := s.listening ++ [c]
      threads := threads } c := by
  cases h with
  | running h => exact .running (hkeep _ h nofun)
  | ready hf h => exact .ready hf (hkeep _ h nofun)
  | adding hf h => cases hphase.symm.trans h
  | pending hf h ht hl => exact .pending hf h ht (.inl (List.mem_append_right _ List.mem_cons_self))

/-- A callback that was run already is on its way only in the thread that runs it. -/
theorem InFlight.ranOnce (h : InFlight s c) (hfired : c ∈ s.fired)
    (hkeep : ∀ x ∈ s.frames, x ≠ .runOnce c → x ∈ threads.flatten) :
    InFlight { s with threads := threads } c := by
  cases h with
  | running h => exact .running (hkeep _ h nofun)
  | ready hf h => exact absurd hfired hf
  | adding hf h => exact absurd hfired hf
  | pending hf h ht hl => exact absurd hfired hf

end Own

/-- A step takes a callback further, or runs it. -/
theorem FrameStep.inFlight {i : Nat} {rest : List (Frame R)}
    (hi : s.threads[i]? = some (frame :: rest)) (hs : FrameStep s frame s' todo)
    (hq : ∀ i, QueueInv i (s.queues i)) (h : InFlight s c) (hrun : frame ≠ .callback c) :
    InFlight { s' with threads := s.threads.set i (todo ++ rest) } c := by
  have hkeep : ∀ x ∈ s.frames, x ≠ frame → x ∈ (s.threads.set i (todo ++ rest)).flatten :=
    fun x hx hne => mem_frames_of_ne hi hx hne
  have hnew : ∀ x ∈ todo, x ∈ (s.threads.set i (todo ++ rest)).flatten :=
    fun x hx => mem_flatten_set_new hi (List.mem_append_left _ hx)
  -- nearly every section leaves the callback where it is
  have hset : ∀ {queue : Nat} {q : CommandQueue R} {phase : Option Phase} {s₁ : System R},
      frame ≠ .runOnce c → (s.queues queue).phase = phase → phase ≠ some (.adding c) →
      phase ≠ some (.arming c) → s₁.frames = (s.threads.set i (todo ++ rest)).flatten →
      s₁.queues = (s.setQueue queue q).queues → s₁.fences = s.fences → s₁.fired = s.fired →
      s₁.listening = s.listening → InFlight s₁ c := by
    intro queue q phase s₁ hne hphase hadding harming hframes hqueues hfences hfired hlistening
    refine h.mono (fun hc => hframes ▸ hkeep _ hc hrun.symm) (fun hc =>
      hframes ▸ hkeep _ hc hne.symm)
      (fun hc => hfired ▸ hc) (fun phase' hp hc => ?_) (fun p hp => hfences ▸ hp)
      (fun hc => hlistening ▸ hc)
    rw [hqueues]
    refine setQueue_phase hphase ?_ hc
    obtain rfl | rfl := hp
    · exact hadding
    · exact harming
  cases hs with
  | enqueue hphase => exact hset nofun hphase nofun nofun rfl rfl rfl rfl rfl
  | empty hphase hp => exact hset nofun hphase nofun nofun rfl rfl rfl rfl rfl
  | execute hphase hp hop => exact hset nofun hphase nofun nofun rfl rfl rfl rfl rfl
  | signalNow hphase hp hop hwaited => exact hset nofun hphase nofun nofun rfl rfl rfl rfl rfl
  | submitSignal hphase hp hop => exact hset nofun hphase nofun nofun rfl rfl rfl rfl rfl
  | stop hphase hp hop hcompleted harmed =>
    exact hset nofun hphase nofun nofun rfl rfl rfl rfl rfl
  | arm hphase hp hop hcompleted harmed =>
    exact hset nofun hphase nofun nofun rfl rfl rfl rfl rfl
  | pass hphase hp hop hpass => exact hset nofun hphase nofun nofun rfl rfl rfl rfl rfl
  | signaled hphase => exact hset nofun hphase nofun nofun rfl rfl rfl rfl rfl
  | @runNow queue c' hphase hreached =>
    by_cases hc : c' = c
    · subst hc
      obtain rfl := ((hq queue).adding c' (.inl hphase)).1
      exact h.runNow hphase hkeep (hnew _ List.mem_cons_self)
    · exact hset nofun hphase (fun heq => hc (by cases heq; rfl)) nofun rfl rfl rfl rfl rfl
  | @add queue c' hphase hreached =>
    by_cases hc : c' = c
    · subst hc
      obtain rfl := ((hq queue).adding c' (.inl hphase)).1
      exact h.add hphase rfl hkeep
    · have hsub : (s.fences c'.fence).pendingCallbacks ⊆
          ((s.fences c'.fence).pushCallback c'.value c').pendingCallbacks :=
        List.subset_append_left ..
      refine h.mono (fun hc => hkeep _ hc nofun) (fun hc => hkeep _ hc nofun) id
        (fun phase hp hph => setQueue_phase hphase ?_ hph) (mem_update_pendingCallbacks hsub _) id
      obtain rfl | rfl := hp
      · exact fun heq => hc (by cases heq; rfl)
      · exact nofun
  | @listen queue c' hphase =>
    by_cases hc : c' = c
    · subst hc
      obtain rfl := ((hq queue).adding c' (.inr hphase)).1
      exact h.listen hphase hkeep
    · refine h.mono (fun hc => hkeep _ hc nofun) (fun hc => hkeep _ hc nofun) id
        (fun phase hp hph => setQueue_phase hphase ?_ hph) (List.Subset.refl _)
        fun hl => List.mem_append_left _ hl
      obtain rfl | rfl := hp
      · exact nofun
      · exact fun heq => hc (by cases heq; rfl)
  | leave hphase => exact hset nofun hphase nofun nofun rfl rfl rfl rfl rfl
  | signal =>
    exact h.storeLocked (fun hc => hkeep _ hc nofun) (fun hc => hkeep _ hc nofun)
      (fun x hx => hnew x (List.mem_cons_of_mem _ hx)) rfl rfl rfl rfl
  | @signalValue fence value =>
    have hsub : (s.fences fence).pendingCallbacks ⊆
        ((s.fences fence).signalEvent value).pendingCallbacks := List.Subset.refl _
    exact h.mono (fun hc => hkeep _ hc nofun) (fun hc => hkeep _ hc nofun) id (fun _ _ hc => hc)
      (mem_update_pendingCallbacks hsub _) id
  | setCompletedValue =>
    exact h.storeLocked (fun hc => hkeep _ hc nofun) (fun hc => hkeep _ hc nofun)
      (fun x hx => hnew x hx) rfl rfl rfl rfl
  | @ranOnce c' hfired =>
    by_cases hc : c' = c
    · subst hc
      exact h.ranOnce hfired hkeep
    · exact h.mono (fun h => hkeep _ h nofun)
        (fun h => hkeep _ h fun heq => hc (by cases heq; rfl)) id (fun _ _ h => h)
        (List.Subset.refl _) id
  | @runOnce c' hfired =>
    by_cases hc : c' = c
    · subst hc
      exact .running (hnew _ List.mem_cons_self)
    · exact h.mono (fun h => hkeep _ h nofun)
        (fun h => hkeep _ h fun heq => hc (by cases heq; rfl))
        (fun h => (List.mem_cons.mp h).resolve_left fun heq => hc heq.symm) (fun _ _ h => h)
        (List.Subset.refl _) id
  | callback hphase => exact hset nofun hphase nofun nofun rfl rfl rfl rfl rfl

theorem InFlight.spawn (h : InFlight s c) (frame : Frame R) : InFlight (s.spawn frame) c :=
  h.mono (fun h => mem_frames_spawn.mpr (.inl h)) (fun h => mem_frames_spawn.mpr (.inl h)) id
    (fun _ _ h => h) (List.Subset.refl _) id

/-- An event that fires takes no callback off its way. -/
theorem InFlight.signalEvent (h : InFlight s c) (fence value : Nat) :
    InFlight (s.signalEvent fence value) c := by
  have hsub : (s.fences fence).pendingCallbacks ⊆
      ((s.fences fence).signalEvent value).pendingCallbacks := List.Subset.refl _
  exact h.mono id id id (fun _ _ h => h) (mem_update_pendingCallbacks hsub _) id

/-- A thread that listens for the callback runs it. -/
theorem InFlight.notify (h : InFlight s c) (c' : WaitCallback) :
    InFlight ({ s with listening := s.listening.erase c' }.spawn (.runOnce c')) c := by
  have hframes : ∀ {x}, x ∈ s.frames → x ∈ (s.spawn (.runOnce c')).frames :=
    fun h => mem_frames_spawn.mpr (.inl h)
  by_cases hc : c = c'
  · subst hc
    have hready : .runOnce c ∈ (s.spawn (.runOnce c)).frames := mem_frames_spawn.mpr (.inr rfl)
    cases h with
    | running h => exact .running (hframes h)
    | ready hf h => exact .ready hf (hframes h)
    | adding hf h => exact .adding hf h
    | pending hf h ht hl => exact .ready hf hready
  · exact h.mono hframes hframes id (fun _ _ h => h) (List.Subset.refl _)
      fun h => (List.mem_erase_of_ne hc).mpr h

/-! ## The waits that are armed -/

/-- The callback of the wait at the front is on its way. -/
def Awake (s : System R) (queue : Nat) (p : PendingOperation R) : Prop :=
  p.waitCallbackArmed = true → p.waitCompleted = false →
    ∃ c, c.queue = queue ∧ p.operation = .wait c.fence c.value ∧ InFlight s c

/-- A stored value has collected what it completes. -/
def Collected (f : FenceImpl Empty WaitCallback) : Prop :=
  f.hasManualCompletedValue = true → ∀ p ∈ f.pendingCallbacks, f.completedValue < p.value

/-- What holds of every head that waits for a callback. -/
structure WakeInv (s : System R) : Prop where
  collected : ∀ f, Collected (s.fences f)
  awake : ∀ i, ∀ p ∈ (s.queues i).pendingOperations.head?, Awake s i p

theorem Awake.mono {i : Nat} {p : PendingOperation R} (h : Awake s i p)
    (hflight : ∀ c, InFlight s c → InFlight s' c) : Awake s' i p := by
  intro harmed hcompleted
  obtain ⟨c, hqueue, hop, hc⟩ := h harmed hcompleted
  exact ⟨c, hqueue, hop, hflight c hc⟩

theorem awake_setQueue (h : ∀ i, ∀ p ∈ (s.queues i).pendingOperations.head?, Awake s i p)
    (hflight : ∀ c, InFlight s c → InFlight s' c) {queue : Nat} {q : CommandQueue R}
    (hqueues : s'.queues = (s.setQueue queue q).queues)
    (hq : ∀ p ∈ q.pendingOperations.head?,
      p ∈ (s.queues queue).pendingOperations.head? ∨ Awake s' queue p) :
    ∀ i, ∀ p ∈ (s'.queues i).pendingOperations.head?, Awake s' i p := by
  intro i p hp
  rw [hqueues, setQueue_queues] at hp
  split at hp
  next hi =>
    obtain hp | hp := hq p hp
    · exact (h i p (hi ▸ hp)).mono hflight
    · exact hi ▸ hp
  next => exact (h i p hp).mono hflight

theorem mem_head?_drain (q : CommandQueue R) :
    q.drainPendingOperationsLocked.pendingOperations = q.pendingOperations := by
  unfold drainPendingOperationsLocked
  split <;> rfl

/-- Only the wait at the front is armed. -/
theorem awake_tail {queue : Nat} {q : CommandQueue R} (h : QueueInv queue q)
    {p : PendingOperation R} (hp : p ∈ q.pendingOperations.tail.head?) : Awake s queue p :=
  fun harmed => nomatch (h.idle p (List.mem_of_mem_head? hp)).1.symm.trans harmed

/-- After a step of a thread every waiting head is awake or about to be. -/
theorem FrameStep.awake {i : Nat} {rest : List (Frame R)}
    (hi : s.threads[i]? = some (frame :: rest)) (hs : FrameStep s frame s' todo)
    (hq : ∀ i, QueueInv i (s.queues i)) (hknown : ∀ c, Knows s c → Known s c)
    (h : ∀ i, ∀ p ∈ (s.queues i).pendingOperations.head?, Awake s i p) :
    ∀ j, ∀ p ∈ (s'.queues j).pendingOperations.head?,
      Awake { s' with threads := s.threads.set i (todo ++ rest) } j p := by
  have hflight : frame.isCallback = false → ∀ c, InFlight s c →
      InFlight { s' with threads := s.threads.set i (todo ++ rest) } c := by
    intro hframe c hc
    refine hs.inFlight hi hq hc ?_
    rintro rfl
    cases hframe
  cases hs with
  | @enqueue queue operation hphase =>
    refine awake_setQueue h (hflight rfl) rfl fun p hp => ?_
    rw [enqueuePendingOperation, mem_head?_drain, List.head?_append] at hp
    cases hfront : (s.queues queue).pendingOperations.head? with
    | some front =>
      rw [hfront] at hp
      exact .inl hp
    | none =>
      rw [hfront] at hp
      obtain rfl := Option.some.inj hp
      refine .inr fun harmed => ?_
      cases harmed
  | empty hphase hp => exact awake_setQueue h (hflight rfl) rfl fun p hp => .inl hp
  | execute hphase hp hop =>
    exact awake_setQueue h (hflight rfl) rfl fun p hp => .inr (awake_tail (hq _) hp)
  | signalNow hphase hp hop hwaited =>
    exact awake_setQueue h (hflight rfl) rfl fun p hp => .inl hp
  | submitSignal hphase hp hop =>
    exact awake_setQueue h (hflight rfl) rfl fun p hp => .inr (awake_tail (hq _) hp)
  | stop hphase hp hop hcompleted harmed =>
    exact awake_setQueue h (hflight rfl) rfl fun p hp => .inl hp
  | @arm queue p ps fence value hphase hp hop hcompleted harmed =>
    refine awake_setQueue h (hflight rfl) rfl fun p' hp' => .inr fun _ _ => ?_
    obtain rfl := Option.some.inj hp'
    refine ⟨⟨s.nextId, queue, fence, value⟩, rfl, hop, .adding (fun hfired => ?_) ?_⟩
    · exact absurd (hknown _ (.fired hfired)).1 (lt_irrefl _)
    · change ((s.setQueue queue _).queues queue).phase = _
      rw [setQueue_queues, if_pos rfl]
      rfl
  | pass hphase hp hop hpass =>
    exact awake_setQueue h (hflight rfl) rfl fun p hp => .inr (awake_tail (hq _) hp)
  | signaled hphase =>
    exact awake_setQueue h (hflight rfl) rfl fun p hp => .inr (awake_tail (hq _) hp)
  | runNow hphase hreached => exact awake_setQueue h (hflight rfl) rfl fun p hp => .inl hp
  | add hphase hreached => exact awake_setQueue h (hflight rfl) rfl fun p hp => .inl hp
  | listen hphase => exact awake_setQueue h (hflight rfl) rfl fun p hp => .inl hp
  | leave hphase => exact awake_setQueue h (hflight rfl) rfl fun p hp => .inl hp
  | signal => exact fun j p hp => (h j p hp).mono (hflight rfl)
  | signalValue => exact fun j p hp => (h j p hp).mono (hflight rfl)
  | setCompletedValue => exact fun j p hp => (h j p hp).mono (hflight rfl)
  | ranOnce hfired => exact fun j p hp => (h j p hp).mono (hflight rfl)
  | runOnce hfired => exact fun j p hp => (h j p hp).mono (hflight rfl)
  | @callback c₀ hphase =>
    -- a wait that the callback does not complete has another one
    have hkeep : ∀ j p, p ∈ (s.queues j).pendingOperations.head? →
        (j = c₀.queue → p.operation ≠ .wait c₀.fence c₀.value) →
        Awake { s.setQueue c₀.queue ((s.queues c₀.queue).completeWait c₀.fence c₀.value) with
          threads := s.threads.set i ([.locked c₀.queue] ++ rest) } j p := by
      intro j p hp hne harmed hcompleted
      obtain ⟨c, hqueue, hop, hc⟩ := h j p hp harmed hcompleted
      refine ⟨c, hqueue, hop, (FrameStep.callback hphase).inFlight hi hq hc fun heq => ?_⟩
      obtain rfl := Frame.callback.inj heq
      exact hne hqueue.symm hop
    intro j p hp
    change p ∈ ((s.setQueue c₀.queue _).queues j).pendingOperations.head? at hp
    rw [setQueue_queues] at hp
    split at hp
    next hj =>
      rw [completeWait, mem_head?_drain] at hp
      change p ∈ ((s.queues c₀.queue).pendingOperations.modifyHead _).head? at hp
      cases hfront : (s.queues c₀.queue).pendingOperations with
      | nil =>
        rw [hfront] at hp
        cases hp
      | cons front ps =>
        rw [hfront] at hp
        have hp : front.complete c₀.fence c₀.value = p := Option.some.inj hp
        by_cases hop : front.operation = .wait c₀.fence c₀.value
        · rw [PendingOperation.complete_of_wait hop] at hp
          intro _ hcompleted
          cases (congrArg PendingOperation.waitCompleted hp).trans hcompleted
        · rw [PendingOperation.complete_of_ne hop] at hp
          exact hp ▸ hkeep j front (hj ▸ hfront ▸ rfl) fun _ => hop
    next hj => exact hkeep j p hp fun heq => absurd heq hj

theorem collected_update (h : ∀ i, Collected (s.fences i)) {fence : Nat}
    {f : FenceImpl Empty WaitCallback} (hf : Collected f) (i : Nat) :
    Collected (Function.update s.fences fence f i) := by
  rw [Function.update_apply]
  split
  · exact hf
  · exact h i

theorem collected_storeLocked (f : FenceImpl Empty WaitCallback) (value : Nat) :
    Collected (f.storeCompletedValue value).collectCompletedEventsLocked :=
  fun _ _ hp => of_decide_eq_true (List.mem_filter.mp hp).2

/-- A step of a thread leaves no callback behind that is due. -/
theorem FrameStep.collected (hs : FrameStep s frame s' todo) (h : ∀ i, Collected (s.fences i)) :
    ∀ i, Collected (s'.fences i) := by
  cases hs with
  | @add queue c hphase hreached =>
    refine collected_update h fun hmanual p hp => ?_
    obtain hp | hp := List.mem_append.mp hp
    · exact h c.fence hmanual p hp
    · obtain rfl := List.mem_singleton.mp hp
      exact (if_pos hmanual).symm.trans_lt hreached
  | signal => exact collected_update h (collected_storeLocked _ _)
  | @signalValue fence value => exact collected_update h (h fence)
  | setCompletedValue => exact collected_update h (collected_storeLocked _ _)
  | _ => exact h

/-- An event keeps the invariant. -/
theorem StepCases.wakeInv (hs : StepCases s s') (hq : ∀ i, QueueInv i (s.queues i))
    (hknown : ∀ c, Knows s c → Known s c) (h : WakeInv s) : WakeInv s' := by
  cases hs with
  | @spawn frame hframe hlocked =>
    exact ⟨h.collected, fun i p hp => (h.awake i p hp).mono fun c hc => hc.spawn frame⟩
  | thread hi hframe =>
    have hawake := hframe.awake hi hq hknown h.awake
    exact ⟨hframe.collected h.collected, hawake⟩
  | @execute fence value rest hsignals =>
    refine ⟨collected_update h.collected (h.collected fence), fun i p hp => ?_⟩
    refine (h.awake i p hp).mono fun c hc => ?_
    exact (hc.signalEvent fence value).mono id id id (fun _ _ h => h) (List.Subset.refl _) id
  | @complete fence value rest hsignals =>
    refine ⟨h.collected, fun i p hp => (h.awake i p hp).mono fun c hc => ?_⟩
    exact (hc.spawn (.setCompletedValue fence value)).mono id id id (fun _ _ h => h)
      (List.Subset.refl _) id
  | @notify c' hlistens hle =>
    exact ⟨h.collected, fun i p hp => (h.awake i p hp).mono fun c hc => hc.notify c'⟩

/-- The invariant holds in every state of every run. -/
theorem Reachable.wakeInv {initial : Nat → Nat} (h : Reachable initial s) : WakeInv s := by
  induction h with
  | create => exact ⟨fun _ _ => nofun, fun _ => nofun⟩
  | step h hs ih => exact (step_cases hs).wakeInv h.queueInv h.known ih

/-- **No wait is lost.** What a queue that nobody drains waits for is its front operation, and when
the fence has the value, its callback runs or a thread that listens for it can go on. -/
theorem no_lost_wakeup {initial : Nat → Nat} (h : Reachable initial s) {queue : Nat}
    (hphase : (s.queues queue).phase = none) {p : PendingOperation R}
    (hp : p ∈ (s.queues queue).pendingOperations.head?) :
    ∃ c, c.queue = queue ∧ p.operation = .wait c.fence c.value ∧
      (c.value ≤ (s.fences c.fence).getCompletedValueLocked ∨
          (s.fences c.fence).hasReached c.value = true →
        .callback c ∈ s.frames ∨ c ∉ s.fired ∧ (.runOnce c ∈ s.frames ∨
          c ∈ s.listening ∧ c.value ≤ (s.fences c.fence).event)) := by
  obtain ⟨hdraining, -⟩ := (h.queueInv queue).unlocked hphase
  obtain ⟨harmed, hcompleted, -⟩ := (h.queueInv queue).stopped hdraining p hp
  obtain ⟨c, hqueue, hop, hc⟩ := h.wakeInv.awake queue p hp harmed hcompleted
  refine ⟨c, hqueue, hop, fun hreached => ?_⟩
  cases hc with
  | running hc => exact .inl hc
  | ready hf hc => exact .inr ⟨hf, .inl hc⟩
  | adding hf hc =>
    rw [hqueue, hphase] at hc
    cases hc
  | @pending pending hf hpending ht hl =>
    have hlistens : c ∈ s.listening := by
      refine hl.resolve_right fun harming => ?_
      rw [hqueue, hphase] at harming
      cases harming
    refine .inr ⟨hf, .inr ⟨hlistens, ?_⟩⟩
    have hvalue : c.value = pending.value :=
      ht ▸ (h.reachedInv.target c.fence pending hpending).2
    obtain hreached | hreached := hreached
    swap
    · exact of_decide_eq_true hreached
    -- a stored value would have collected the callback
    cases hmanual : (s.fences c.fence).hasManualCompletedValue with
    | true =>
      have hlt := h.wakeInv.collected c.fence hmanual pending hpending
      rw [FenceImpl.getCompletedValueLocked, if_pos hmanual] at hreached
      omega
    | false =>
      rwa [FenceImpl.getCompletedValueLocked, hmanual, if_neg Bool.false_ne_true] at hreached

theorem no_lost_wakeup_waitAndSignal : ∃ (s : System Unit) (p : PendingOperation Unit),
    (create fun _ => 0).run waitAndSignal = some s ∧
      (s.queues 0).phase = none ∧ p ∈ (s.queues 0).pendingOperations.head? ∧
      (s.fences 0).getCompletedValueLocked = 1 ∧
      ∃ c, c.queue = 0 ∧ p.operation = .wait c.fence c.value ∧
        (c.value ≤ (s.fences c.fence).getCompletedValueLocked ∨
            (s.fences c.fence).hasReached c.value = true →
          .callback c ∈ s.frames ∨ c ∉ s.fired ∧ (.runOnce c ∈ s.frames ∨
            c ∈ s.listening ∧ c.value ≤ (s.fences c.fence).event)) := by
  have hrun : (create fun _ => 0 : System Unit).run waitAndSignal = some _ := rfl
  exact ⟨_, _, hrun, rfl, rfl, rfl, no_lost_wakeup (Reachable.create.run hrun) rfl rfl⟩

end System

end QueueFences

end Dxmt
