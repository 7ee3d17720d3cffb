import Dxmt.ListSlots

/-!
# Fences: `FenceImpl`, `SubmitFenceSignal`

The value of a fence lives in three places: `completed_value_`, the flag that says that it counts,
and the shared event. A CPU signal stores it under `mutex_` and signals the event after that. A
signal of a queue is executed by the GPU, which signals the event, and its readback stores the value
when the chunk has completed.

One step is a section under `mutex_`, or one statement of the tail behind it. Signals are in the
order in which they take effect: a CPU signal where it takes the lock, one of a queue where the GPU
executes it. A polling `SetEventOnCompletion` changes nothing, the fence is not destroyed, and
values do not wrap, since they are only compared.

Result: `fence_contract`. Where the readback of a queue's signal runs before the next CPU signal
(and, before the first one, before the GPU executes another signal), the tail of a CPU signal runs
before the event is signalled for a later one, and the event of a callback can be created, the three
values agree, do not go back, and every registration fires once. A readback that comes later takes
the value back.
-/

namespace Dxmt

variable {Handle Callback : Type}

/-- `PendingEvent` and `PendingCallback`: what fires when the fence has the value. -/
structure PendingValue (Target : Type) where
  value : Nat
  target : Target
deriving DecidableEq

/-- The state of a fence. -/
structure FenceImpl (Handle Callback : Type) where
  completedValue : Nat
  hasManualCompletedValue : Bool := false
  /-- The value of the shared event. -/
  event : Nat
  pendingEvents : List (PendingValue Handle) := []
  pendingCallbacks : List (PendingValue Callback) := []

namespace FenceImpl

/-- The constructor. -/
def create (initialValue : Nat) : FenceImpl Handle Callback :=
  { completedValue := initialValue, event := initialValue }

/-- `GetCompletedValueLocked`. -/
def getCompletedValueLocked (f : FenceImpl Handle Callback) : Nat :=
  if f.hasManualCompletedValue then f.completedValue else f.event

/-- The shared event has reached the value. -/
def hasReached (f : FenceImpl Handle Callback) (value : Nat) : Bool :=
  decide (value ≤ f.event)

/-- What `collectCompletedEventsLocked` leaves. -/
def collectCompletedEventsLocked (f : FenceImpl Handle Callback) : FenceImpl Handle Callback :=
  { f with
    pendingEvents := f.pendingEvents.filter (f.getCompletedValueLocked < ·.value)
    pendingCallbacks := f.pendingCallbacks.filter (f.getCompletedValueLocked < ·.value) }

/-- The events that it takes out. -/
def completedEvents (f : FenceImpl Handle Callback) : List Handle :=
  (f.pendingEvents.filter (¬ f.getCompletedValueLocked < ·.value)).map (·.target)

/-- The callbacks that it takes out. -/
def completedCallbacks (f : FenceImpl Handle Callback) : List Callback :=
  (f.pendingCallbacks.filter (¬ f.getCompletedValueLocked < ·.value)).map (·.target)

/-- The store under the lock in `Signal` and in `SetCompletedValue`, before the collection. -/
def storeCompletedValue (f : FenceImpl Handle Callback) (value : Nat) : FenceImpl Handle Callback :=
  { f with completedValue := value, hasManualCompletedValue := true }

/-- `event_.signalValue`, and what the GPU does for a `signalEvent`. -/
def signalEvent (f : FenceImpl Handle Callback) (value : Nat) : FenceImpl Handle Callback :=
  { f with event := value }

/-- Registers an event. -/
def pushEvent (f : FenceImpl Handle Callback) (value : Nat) (event : Handle) :
    FenceImpl Handle Callback :=
  { f with pendingEvents := f.pendingEvents ++ [⟨value, event⟩] }

/-- Registers a callback. -/
def pushCallback (f : FenceImpl Handle Callback) (value : Nat) (callback : Callback) :
    FenceImpl Handle Callback :=
  { f with pendingCallbacks := f.pendingCallbacks ++ [⟨value, callback⟩] }

variable {f : FenceImpl Handle Callback} {value : Nat}

end FenceImpl

/-! ## The calls in flight -/

/-- A handle or a callback that is registered, with the number of the last signal before. -/
structure Registration where
  id : Nat
  value : Nat
  birth : Nat
deriving DecidableEq

/-- Where a thread is in a call on the fence. -/
inductive FenceCall where
  /-- `Signal` before `event_.signalValue`, with the number of the signal. -/
  | signaling (number value : Nat) (events callbacks : List Registration)
  /-- Before the next `SetEvent` or the next callback; without one the call has returned. -/
  | notifying (events callbacks : List Registration)
  /-- `AddCompletionCallback` before `CreateEventW`. -/
  | creating (r : Registration)
  /-- A thread of `AddCompletionCallback` in `WaitForSingleObject`. -/
  | listening (r : Registration)
deriving DecidableEq

/-- The two kinds of registrations. -/
inductive RegistrationKind where
  | event
  | callback
deriving DecidableEq

namespace FenceCall

/-- The events that the call still has to set, or the callbacks that it still has to run. -/
def holds : RegistrationKind → FenceCall → List Registration
  | .event, signaling _ _ events _ | .event, notifying events _ => events
  | .callback, signaling _ _ _ callbacks | .callback, notifying _ callbacks => callbacks
  | _, creating _ | _, listening _ => []

/-- The callback that the call arms. -/
def arms : FenceCall → List Registration
  | creating r | listening r => [r]
  | _ => []

/-- A thread that listens is no call in flight. -/
def returned : FenceCall → Bool
  | notifying [] [] | listening _ => true
  | _ => false

end FenceCall

/-- A fence, what the GPU has to do for it, the calls in flight, and what happened: the signals in
their order, the numbers of those that set the two values, what was registered and what fired. -/
structure FenceSystem where
  fence : FenceImpl Registration Registration
  initial : Nat
  signals : List Nat := []
  completedBy : Nat := 0
  eventBy : Nat := 0
  /-- The signals of queues that the GPU has not executed. -/
  submitted : List Nat := []
  /-- The signals it has executed, with their numbers; their readbacks have not run. -/
  executed : List (Nat × Nat) := []
  /-- The numbers of the CPU signals, and of those whose tail has signalled the event. -/
  cpuSignals : List Nat := []
  tails : List Nat := []
  /-- The numbers of the signals that the GPU has executed, and of those whose readbacks have run.
  -/
  gpuSignals : List Nat := []
  readbacks : List Nat := []
  calls : List FenceCall := []
  events : List Registration := []
  callbacks : List Registration := []
  firedEvents : List Registration := []
  firedCallbacks : List Registration := []

namespace FenceSystem

variable {initial : Nat} {s s' : FenceSystem}

/-- A new fence. -/
def create (initial : Nat) : FenceSystem := { fence := .create initial, initial := initial }

/-- The value of the signal with the number; the initial value is number 0. -/
def valueOf (s : FenceSystem) (number : Nat) : Option Nat := (s.initial :: s.signals)[number]?

/-- The number of the signal whose value `GetCompletedValue` returns. -/
def valueBy (s : FenceSystem) : Nat :=
  if s.fence.hasManualCompletedValue then s.completedBy else s.eventBy

/-- What is registered and has not been taken. -/
def pending (s : FenceSystem) : RegistrationKind → List (PendingValue Registration)
  | .event => s.fence.pendingEvents
  | .callback => s.fence.pendingCallbacks

/-- What has been registered so far. -/
def registered (s : FenceSystem) : RegistrationKind → List Registration
  | .event => s.events
  | .callback => s.callbacks

/-- What has run so far. -/
def fired (s : FenceSystem) : RegistrationKind → List Registration
  | .event => s.firedEvents
  | .callback => s.firedCallbacks

/-- Moves one call on. -/
def setCall (s : FenceSystem) (i : Nat) (call : FenceCall) : FenceSystem :=
  { s with calls := s.calls.set i call }

/-- `storeCompletedValue` and the collection: what `Signal` and `SetCompletedValue` do under the
lock. -/
def setCompletedValueLocked (s : FenceSystem) (number value : Nat) : FenceSystem :=
  { s with
    fence := (s.fence.storeCompletedValue value).collectCompletedEventsLocked
    completedBy := number }

/-- `Signal` up to the end of its locked section. -/
def signalLocked (s : FenceSystem) (value : Nat) : FenceSystem :=
  let stored := s.fence.storeCompletedValue value
  { s.setCompletedValueLocked (s.signals.length + 1) value with
    signals := s.signals ++ [value]
    cpuSignals := s.cpuSignals ++ [s.signals.length + 1]
    calls := s.calls ++
      [.signaling (s.signals.length + 1) value stored.completedEvents stored.completedCallbacks] }

/-- `SubmitFenceSignal`, with what the queue has done before. -/
def submitFenceSignal (s : FenceSystem) (submittedBatches : Nat) (hasWaited : Bool) (value : Nat) :
    FenceSystem :=
  if submittedBatches = 0 ∧ hasWaited = false then s.signalLocked value
  else { s with submitted := s.submitted ++ [value] }

/-- The GPU executes the `signalEvent`. -/
def execute (s : FenceSystem) (value : Nat) (rest : List Nat) : FenceSystem :=
  { s with
    fence := s.fence.signalEvent value
    eventBy := s.signals.length + 1
    signals := s.signals ++ [value]
    submitted := rest
    gpuSignals := s.gpuSignals ++ [s.signals.length + 1]
    executed := s.executed ++ [(s.signals.length + 1, value)] }

/-- `SetCompletedValue` up to the end of its locked section. -/
def complete (s : FenceSystem) (number value : Nat) (rest : List (Nat × Nat)) : FenceSystem :=
  let stored := s.fence.storeCompletedValue value
  { s.setCompletedValueLocked number value with
    executed := rest
    readbacks := s.readbacks ++ [number]
    calls := s.calls ++ [.notifying stored.completedEvents stored.completedCallbacks] }

/-- The locked section of `SetEventOnCompletion`. -/
def setEventOnCompletion (s : FenceSystem) (value : Nat) : FenceSystem :=
  let r : Registration := ⟨s.events.length, value, s.signals.length⟩
  if value ≤ s.fence.getCompletedValueLocked then
    { s with events := s.events ++ [r], calls := s.calls ++ [.notifying [r] []] }
  else { s with events := s.events ++ [r], fence := s.fence.pushEvent value r }

/-- The locked section of `AddCompletionCallback`. -/
def addCompletionCallback (s : FenceSystem) (value : Nat) : FenceSystem :=
  let r : Registration := ⟨s.callbacks.length, value, s.signals.length⟩
  if value ≤ s.fence.getCompletedValueLocked then
    { s with callbacks := s.callbacks ++ [r], calls := s.calls ++ [.notifying [] [r]] }
  else
    { s with
      callbacks := s.callbacks ++ [r]
      fence := s.fence.pushCallback value r
      calls := s.calls ++ [.creating r] }

/-- `event_.signalValue` of a CPU signal. -/
def storeEvent (s : FenceSystem) (number value : Nat) : FenceSystem :=
  { s with
    fence := s.fence.signalEvent value
    eventBy := number
    tails := s.tails ++ [number] }

/-- `run_once`. -/
def runOnce (s : FenceSystem) (r : Registration) : FenceSystem :=
  if r ∈ s.firedCallbacks then s else { s with firedCallbacks := s.firedCallbacks ++ [r] }

/-- The handle of the registration is set. -/
def setEvent (s : FenceSystem) (r : Registration) : FenceSystem :=
  { s with firedEvents := s.firedEvents ++ [r] }

/-- What takes a step; a step of a call has its place in the list. -/
inductive FenceEvent where
  | signal (value : Nat)
  | submitFenceSignal (submittedBatches : Nat) (hasWaited : Bool) (value : Nat)
  | execute
  | complete
  | setEventOnCompletion (value : Nat)
  | addCompletionCallback (value : Nat)
  | storeEvent (i : Nat)
  | notify (i : Nat)
  | createEvent (i : Nat) (created : Bool)
  | listened (i : Nat)

/-- The steps of a fence and its calls; a call takes the lock in a step of its own. -/
inductive Step (s : FenceSystem) : FenceEvent → FenceSystem → Prop
  | signal (value : Nat) : Step s (.signal value) (s.signalLocked value)
  | submitFenceSignal (submittedBatches : Nat) (hasWaited : Bool) (value : Nat) :
      Step s (.submitFenceSignal submittedBatches hasWaited value)
        (s.submitFenceSignal submittedBatches hasWaited value)
  | execute (value : Nat) (rest : List Nat) (h : s.submitted = value :: rest) :
      Step s .execute (s.execute value rest)
  -- the finish thread runs the readbacks in order, and may be in the tail of an earlier one here
  | complete (number value : Nat) (rest : List (Nat × Nat))
      (h : s.executed = (number, value) :: rest) : Step s .complete (s.complete number value rest)
  | setEventOnCompletion (value : Nat) :
      Step s (.setEventOnCompletion value) (s.setEventOnCompletion value)
  | addCompletionCallback (value : Nat) :
      Step s (.addCompletionCallback value) (s.addCompletionCallback value)
  | storeEvent (i number value : Nat) (events callbacks : List Registration)
      (h : s.calls[i]? = some (.signaling number value events callbacks)) :
      Step s (.storeEvent i) ((s.storeEvent number value).setCall i (.notifying events callbacks))
  | setEvent (i : Nat) (r : Registration) (events callbacks : List Registration)
      (h : s.calls[i]? = some (.notifying (r :: events) callbacks)) :
      Step s (.notify i) ((s.setEvent r).setCall i (.notifying events callbacks))
  | runCallback (i : Nat) (r : Registration) (callbacks : List Registration)
      (h : s.calls[i]? = some (.notifying [] (r :: callbacks))) :
      Step s (.notify i) ((s.runOnce r).setCall i (.notifying [] callbacks))
  | eventCreated (i : Nat) (r : Registration) (h : s.calls[i]? = some (.creating r)) :
      Step s (.createEvent i true) (s.setCall i (.listening r))
  | eventNotCreated (i : Nat) (r : Registration) (h : s.calls[i]? = some (.creating r)) :
      Step s (.createEvent i false) (s.setCall i (.notifying [] [r]))
  -- the notification comes at some time after the event has the value
  | listened (i : Nat) (r : Registration) (h : s.calls[i]? = some (.listening r))
      (hr : s.fence.hasReached r.value = true) :
      Step s (.listened i) (s.setCall i (.notifying [] [r]))

/-- The states of a run whose steps all meet the guard, the last one at the end. -/
inductive Run (guard : FenceSystem → FenceEvent → Prop) (initial : Nat) :
    List FenceSystem → FenceSystem → Prop
  | create : Run guard initial [create initial] (create initial)
  | step {past : List FenceSystem} {s s' : FenceSystem} (e : FenceEvent)
      (h : Run guard initial past s) (hs : Step s e s') (hg : guard s e) :
      Run guard initial (past ++ [s']) s'

/-! ## What a run owes -/

/-- No call is in flight, and the GPU and the finish thread have done all signals. -/
def Quiescent (s : FenceSystem) : Prop :=
  (∀ call ∈ s.calls, call.returned = true) ∧ s.submitted = [] ∧ s.executed = []

/-- The fence had the value at some time after the registration. -/
def Held (kind : RegistrationKind) (past : List FenceSystem) (r : Registration) : Prop :=
  ∃ t ∈ past, r ∈ t.registered kind ∧
    (r.value ≤ t.fence.getCompletedValueLocked ∨ t.fence.hasReached r.value = true)

/-- A later signal has the value that the registration is for. -/
def Due (s : FenceSystem) (r : Registration) (number : Nat) : Prop :=
  r.birth < number ∧ ∃ value, s.valueOf number = some value ∧ r.value ≤ value

/-- What holds in the last state of a run. A registration that is due has fired unless the readback
of the signal has not run, or a call is about to fire it. -/
structure Contract (past : List FenceSystem) (s : FenceSystem) : Prop where
  agree : Quiescent s → s.valueOf s.signals.length = some s.fence.getCompletedValueLocked ∧
    s.fence.event = s.fence.getCompletedValueLocked
  value : s.valueOf s.valueBy = some s.fence.getCompletedValueLocked
  forward : ∀ t ∈ past, t.valueBy ≤ s.valueBy
  once : ∀ kind, (s.fired kind).Nodup
  held : ∀ kind, ∀ r ∈ s.fired kind, Held kind past r
  fires : ∀ kind, ∀ r ∈ s.registered kind, ∀ number, Due s r number →
    r ∈ s.fired kind ∨ number ∈ s.executed.map Prod.fst ∨ ∃ call ∈ s.calls, r ∈ call.holds kind

/-- The condition of a step, in terms of the steps that came before. A readback comes before the CPU
signals after its signal; as long as there was neither a CPU signal nor a readback, it also comes
before the GPU executes another signal. The tail of a CPU signal comes before the GPU executes a
later signal, and before the tail of a later one. And `CreateEventW` succeeds. -/
def InOrder (s : FenceSystem) : FenceEvent → Prop
  | .complete => ∀ number value rest, s.executed = (number, value) :: rest →
      (∀ n ∈ s.cpuSignals, n ≤ number) ∧ (s.cpuSignals = [] → s.readbacks = [] → rest = [])
  | .storeEvent i => ∀ number value events callbacks,
      s.calls[i]? = some (.signaling number value events callbacks) →
      (∀ n ∈ s.gpuSignals, n ≤ number) ∧ ∀ n ∈ s.tails, n ≤ number
  | .createEvent _ created => created = true
  | _ => True

/-- What follows for the step: the value that it stores is of no earlier signal than the one there.
-/
def Current (s : FenceSystem) : FenceEvent → Prop
  | .complete => ∀ number value rest, s.executed = (number, value) :: rest → s.valueBy ≤ number
  | .storeEvent i => ∀ number value events callbacks,
    s.calls[i]? = some (.signaling number value events callbacks) → s.eventBy ≤ number
  | .createEvent _ created => created = true
  | _ => True

/-! ## The values -/

/-- The values belong to the signals they are attributed to, and what the last signal has not set
yet is still to be set. -/
structure ValueInv (s : FenceSystem) : Prop where
  completed : s.valueOf s.completedBy = some s.fence.completedValue
  event : s.valueOf s.eventBy = some s.fence.event
  executed : ∀ p ∈ s.executed, s.valueOf p.1 = some p.2
  signaling : ∀ number value events callbacks, .signaling number value events callbacks ∈ s.calls →
    s.valueOf number = some value
  manual : ∀ number value events callbacks, .signaling number value events callbacks ∈ s.calls →
    s.fence.hasManualCompletedValue = true
  latestValue : s.valueBy = s.signals.length ∨ s.signals.length ∈ s.executed.map Prod.fst
  latestEvent : s.eventBy = s.signals.length ∨ ∃ value events callbacks,
    .signaling s.signals.length value events callbacks ∈ s.calls

theorem le_of_valueOf {number value : Nat} (h : s.valueOf number = some value) :
    number ≤ s.signals.length :=
  Nat.lt_succ_iff.mp (List.getElem?_eq_some_iff.mp h).1

theorem ValueInv.create : ValueInv (create initial) where
  completed := rfl
  event := rfl
  executed _ hp := absurd hp List.not_mem_nil
  signaling _ _ _ _ hc := absurd hc List.not_mem_nil
  manual _ _ _ _ hc := absurd hc List.not_mem_nil
  latestValue := Or.inl rfl
  latestEvent := Or.inl rfl

/-- `GetCompletedValue` returns the value of the signal. -/
theorem ValueInv.value (h : ValueInv s) :
    s.valueOf s.valueBy = some s.fence.getCompletedValueLocked := by
  unfold valueBy FenceImpl.getCompletedValueLocked
  split
  · exact h.completed
  · exact h.event

/-- A signal that is added keeps the older ones. -/
theorem valueOf_append {number value v : Nat} (hinitial : s'.initial = s.initial)
    (hsignals : s'.signals = s.signals ++ [v]) (h : s.valueOf number = some value) :
    s'.valueOf number = some value := by
  unfold valueOf at h ⊢
  rw [hinitial, hsignals, ← List.cons_append]
  exact (List.getElem?_append_left (List.getElem?_eq_some_iff.mp h).1).trans h

theorem valueOf_last {v : Nat} (hsignals : s'.signals = s.signals ++ [v]) :
    s'.valueOf (s.signals.length + 1) = some v := by
  unfold valueOf
  rw [hsignals, List.getElem?_cons_succ, List.getElem?_concat_length]

/-- A step that touches neither the values nor the signals. -/
structure SameValues (s s' : FenceSystem) : Prop where
  initial : s'.initial = s.initial
  signals : s'.signals = s.signals
  completedBy : s'.completedBy = s.completedBy
  eventBy : s'.eventBy = s.eventBy
  executed : s'.executed = s.executed
  completedValue : s'.fence.completedValue = s.fence.completedValue
  manual : s'.fence.hasManualCompletedValue = s.fence.hasManualCompletedValue
  event : s'.fence.event = s.fence.event
  signaling : ∀ number value events callbacks,
    .signaling number value events callbacks ∈ s'.calls ↔
      .signaling number value events callbacks ∈ s.calls

theorem SameValues.valueBy (h : SameValues s s') : s'.valueBy = s.valueBy := by
  unfold FenceSystem.valueBy
  rw [h.manual, h.completedBy, h.eventBy]

theorem SameValues.valueOf (h : SameValues s s') (number : Nat) :
    s'.valueOf number = s.valueOf number := by
  unfold FenceSystem.valueOf
  rw [h.initial, h.signals]

theorem ValueInv.same (h : ValueInv s) (hsame : SameValues s s') : ValueInv s' where
  completed := by rw [hsame.valueOf, hsame.completedBy, hsame.completedValue, h.completed]
  event := by rw [hsame.valueOf, hsame.eventBy, hsame.event, h.event]
  executed p hp := by
    rw [hsame.valueOf]
    exact h.executed p (hsame.executed ▸ hp)
  signaling number value events callbacks hc := by
    rw [hsame.valueOf]
    exact h.signaling number value events callbacks ((hsame.signaling _ _ _ _).mp hc)
  manual number value events callbacks hc := by
    rw [hsame.manual]
    exact h.manual number value events callbacks ((hsame.signaling _ _ _ _).mp hc)
  latestValue := by
    rw [hsame.valueBy, hsame.signals, hsame.executed]
    exact h.latestValue
  latestEvent := by
    rw [hsame.eventBy, hsame.signals]
    exact h.latestEvent.imp id fun ⟨value, events, callbacks, hc⟩ =>
      ⟨value, events, callbacks, (hsame.signaling _ _ _ _).mpr hc⟩

/-- Among the calls only those in `Signal` count for the values. -/
theorem signaling_append {calls : List FenceCall} {call : FenceCall}
    (hcall : ∀ number value events callbacks, call ≠ .signaling number value events callbacks)
    (number value : Nat) (events callbacks : List Registration) :
    .signaling number value events callbacks ∈ calls ++ [call] ↔
      .signaling number value events callbacks ∈ calls := by
  rw [List.mem_append, List.mem_singleton]
  exact or_iff_left fun h => hcall _ _ _ _ h.symm

theorem signaling_set {calls : List FenceCall} {i : Nat} {call call' : FenceCall}
    (hi : calls[i]? = some call)
    (hcall : ∀ number value events callbacks, call ≠ .signaling number value events callbacks)
    (hcall' : ∀ number value events callbacks, call' ≠ .signaling number value events callbacks)
    (number value : Nat) (events callbacks : List Registration) :
    .signaling number value events callbacks ∈ calls.set i call' ↔
      .signaling number value events callbacks ∈ calls := by
  constructor
  · intro h
    exact (List.mem_or_eq_of_mem_set h).resolve_right fun he => hcall' _ _ _ _ he.symm
  · intro h
    exact mem_of_mem_flatMap_set hi h fun he => hcall _ _ _ _ he.symm

/-- The value of a CPU signal; its event is still to be signalled. -/
theorem ValueInv.signalLocked (h : ValueInv s) (value : Nat) : ValueInv (s.signalLocked value) where
  completed := valueOf_last (s := s) rfl
  event := valueOf_append (s := s) rfl rfl h.event
  executed p hp := valueOf_append (s := s) rfl rfl (h.executed p hp)
  signaling number v events callbacks hc := by
    rcases List.mem_append.mp hc with hc | hc
    · exact valueOf_append (s := s) rfl rfl (h.signaling number v events callbacks hc)
    · cases List.mem_singleton.mp hc
      exact valueOf_last (s := s) rfl
  manual _ _ _ _ _ := rfl
  latestValue := Or.inl (@List.length_append _ _ [value]).symm
  latestEvent := Or.inr ⟨value, _, _, List.mem_append_right _ (List.mem_singleton.mpr (by
    show FenceCall.signaling (s.signals ++ [value]).length _ _ _ = _
    rw [List.length_append]
    rfl))⟩

theorem valueBy_signalLocked (value : Nat) :
    (s.signalLocked value).valueBy = s.signals.length + 1 := rfl

theorem ValueInv.execute (h : ValueInv s) (value : Nat) (rest : List Nat) :
    ValueInv (s.execute value rest) where
  completed := valueOf_append (s := s) rfl rfl h.completed
  event := valueOf_last (s := s) rfl
  executed p hp := by
    rcases List.mem_append.mp hp with hp | hp
    · exact valueOf_append (s := s) rfl rfl (h.executed p hp)
    · cases List.mem_singleton.mp hp
      exact valueOf_last (s := s) rfl
  signaling number v events callbacks hc :=
    valueOf_append (s := s) rfl rfl (h.signaling number v events callbacks hc)
  manual := h.manual
  latestValue := Or.inr (by
    show (s.signals ++ [value]).length ∈ (s.executed ++ [_]).map Prod.fst
    rw [List.length_append, List.map_append]
    exact List.mem_append_right _ (List.mem_singleton_self _))
  latestEvent := Or.inl (@List.length_append _ _ [value]).symm

theorem valueBy_execute (h : ValueInv s) (value : Nat) (rest : List Nat) :
    s.valueBy ≤ (s.execute value rest).valueBy := by
  have hle := le_of_valueOf h.event
  unfold valueBy
  show _ ≤ if s.fence.hasManualCompletedValue = true then s.completedBy else s.signals.length + 1
  split
  · exact Nat.le_refl _
  · omega

/-- A readback that no later signal has overtaken. -/
theorem ValueInv.complete {number value : Nat} {rest : List (Nat × Nat)} (h : ValueInv s)
    (he : s.executed = (number, value) :: rest) (hg : s.valueBy ≤ number) :
    ValueInv (s.complete number value rest) where
  completed := h.executed (number, value) (he ▸ List.mem_cons_self)
  event := h.event
  executed p hp := h.executed p (he ▸ List.mem_cons_of_mem _ hp)
  signaling number v events callbacks hc := by
    refine h.signaling number v events callbacks ((signaling_append ?_ _ _ _ _).mp hc)
    exact fun _ _ _ _ he => nomatch he
  manual _ _ _ _ _ := rfl
  latestValue := by
    have hle := le_of_valueOf (h.executed (number, value) (he ▸ List.mem_cons_self))
    show number = s.signals.length ∨ s.signals.length ∈ rest.map Prod.fst
    rcases h.latestValue with heq | hmem
    · exact Or.inl (by omega)
    · rw [he, List.map_cons, List.mem_cons] at hmem
      exact hmem.imp Eq.symm id
  latestEvent := h.latestEvent.imp id fun ⟨v, events, callbacks, hc⟩ =>
    ⟨v, events, callbacks, List.mem_append_left _ hc⟩

theorem valueBy_storeEvent {i number value : Nat} {events callbacks : List Registration}
    (hi : s.calls[i]? = some (.signaling number value events callbacks)) (h : ValueInv s) :
    ((s.storeEvent number value).setCall i (.notifying events callbacks)).valueBy = s.valueBy := by
  have hmanual := h.manual _ _ _ _ (List.mem_of_getElem? hi)
  unfold valueBy
  show (if s.fence.hasManualCompletedValue = true then s.completedBy else number) = _
  rw [if_pos hmanual, if_pos hmanual]

/-- The tail of a CPU signal whose event no later signal has signalled. -/
theorem ValueInv.storeEvent {i number value : Nat} {events callbacks : List Registration}
    (h : ValueInv s) (hi : s.calls[i]? = some (.signaling number value events callbacks))
    (hg : s.eventBy ≤ number) :
    ValueInv ((s.storeEvent number value).setCall i (.notifying events callbacks)) where
  completed := h.completed
  event := h.signaling _ _ _ _ (List.mem_of_getElem? hi)
  executed := h.executed
  signaling n v events callbacks hc := by
    refine h.signaling n v events callbacks ((List.mem_or_eq_of_mem_set hc).resolve_right ?_)
    exact fun he => nomatch he
  manual n v events callbacks hc :=
    h.manual _ _ _ _ (List.mem_of_getElem? hi)
  latestValue := by
    rw [valueBy_storeEvent hi h]
    exact h.latestValue
  latestEvent := by
    have hle := le_of_valueOf (h.signaling _ _ _ _ (List.mem_of_getElem? hi))
    show number = s.signals.length ∨ _
    rcases h.latestEvent with heq | ⟨v, events', callbacks', hc⟩
    · exact Or.inl (by omega)
    · by_cases hnumber : number = s.signals.length
      · exact Or.inl hnumber
      · refine Or.inr ⟨v, events', callbacks', mem_of_mem_flatMap_set hi hc fun he => ?_⟩
        injection he with he
        exact hnumber he.symm

theorem SameValues.setCall {i : Nat} {call call' : FenceCall} (hi : s.calls[i]? = some call)
    (hcall : ∀ number value events callbacks, call ≠ .signaling number value events callbacks)
    (hcall' : ∀ number value events callbacks, call' ≠ .signaling number value events callbacks) :
    SameValues s (s.setCall i call') where
  initial := rfl
  signals := rfl
  completedBy := rfl
  eventBy := rfl
  executed := rfl
  completedValue := rfl
  manual := rfl
  event := rfl
  signaling := signaling_set hi hcall hcall'

theorem SameValues.setEventOnCompletion (value : Nat) :
    SameValues s (s.setEventOnCompletion value) := by
  unfold FenceSystem.setEventOnCompletion
  dsimp only
  split
  · exact ⟨rfl, rfl, rfl, rfl, rfl, rfl, rfl, rfl, signaling_append fun _ _ _ _ he => nomatch he⟩
  · exact ⟨rfl, rfl, rfl, rfl, rfl, rfl, rfl, rfl, fun _ _ _ _ => Iff.rfl⟩

theorem SameValues.addCompletionCallback (value : Nat) :
    SameValues s (s.addCompletionCallback value) := by
  unfold FenceSystem.addCompletionCallback
  dsimp only
  split
  · exact ⟨rfl, rfl, rfl, rfl, rfl, rfl, rfl, rfl, signaling_append fun _ _ _ _ he => nomatch he⟩
  · exact ⟨rfl, rfl, rfl, rfl, rfl, rfl, rfl, rfl, signaling_append fun _ _ _ _ he => nomatch he⟩

theorem runOnce_eq (r : Registration) :
    s.runOnce r = { s with
      firedCallbacks := if r ∈ s.firedCallbacks then s.firedCallbacks
      else s.firedCallbacks ++ [r] } := by
  unfold runOnce
  split
  · rfl
  · rfl

/-- **A current step** keeps the attribution, and the value that `GetCompletedValue` returns belongs
to no earlier signal. -/
theorem ValueInv.step {e : FenceEvent} (h : ValueInv s) (hs : Step s e s') (hg : Current s e) :
    ValueInv s' ∧ s.valueBy ≤ s'.valueBy := by
  have hsame (hsame : SameValues s s') : ValueInv s' ∧ s.valueBy ≤ s'.valueBy :=
    ⟨h.same hsame, Nat.le_of_eq hsame.valueBy.symm⟩
  have hsignal (value : Nat) : ValueInv (s.signalLocked value) ∧
      s.valueBy ≤ (s.signalLocked value).valueBy := by
    refine ⟨h.signalLocked value, ?_⟩
    have hle := le_of_valueOf h.value
    rw [valueBy_signalLocked]
    omega
  cases hs with
  | signal value => exact hsignal value
  | submitFenceSignal submittedBatches hasWaited value =>
    unfold FenceSystem.submitFenceSignal
    split
    · exact hsignal value
    · exact ⟨⟨h.completed, h.event, h.executed, h.signaling, h.manual, h.latestValue,
        h.latestEvent⟩, Nat.le_refl _⟩
  | execute value rest hsub => exact ⟨h.execute value rest, valueBy_execute h value rest⟩
  | complete number value rest he =>
    have hnumber := hg number value rest he
    exact ⟨h.complete he hnumber, hnumber⟩
  | setEventOnCompletion value => exact hsame (.setEventOnCompletion value)
  | addCompletionCallback value => exact hsame (.addCompletionCallback value)
  | storeEvent i number value events callbacks hi =>
    exact ⟨h.storeEvent hi (hg _ _ _ _ hi), Nat.le_of_eq (valueBy_storeEvent hi h).symm⟩
  | setEvent i r events callbacks hi =>
    have hset : SameValues s (s.setCall i (.notifying events callbacks)) :=
      .setCall hi (fun _ _ _ _ he => nomatch he) fun _ _ _ _ he => nomatch he
    exact hsame { hset with }
  | runCallback i r callbacks hi =>
    have hset : SameValues s (s.setCall i (.notifying [] callbacks)) :=
      .setCall hi (fun _ _ _ _ he => nomatch he) fun _ _ _ _ he => nomatch he
    rw [runOnce_eq] at hsame ⊢
    exact hsame { hset with }
  | eventCreated i r hi =>
    exact hsame (.setCall hi (fun _ _ _ _ he => nomatch he) fun _ _ _ _ he => nomatch he)
  | eventNotCreated i r hi =>
    exact hsame (.setCall hi (fun _ _ _ _ he => nomatch he) fun _ _ _ _ he => nomatch he)
  | listened i r hi hr =>
    exact hsame (.setCall hi (fun _ _ _ _ he => nomatch he) fun _ _ _ _ he => nomatch he)

/-! ## The order of the steps -/

/-- Who set the values, read off the steps that were made. -/
structure OrderInv (s : FenceSystem) : Prop where
  manual : s.fence.hasManualCompletedValue = false ↔ s.cpuSignals = [] ∧ s.readbacks = []
  completed : s.fence.hasManualCompletedValue = true →
    s.completedBy ∈ s.cpuSignals ∨ s.completedBy ∈ s.readbacks
  /-- No readback has gone behind a CPU signal. -/
  latest : ∀ n ∈ s.cpuSignals, n ≤ s.completedBy
  event : s.eventBy = 0 ∨ s.eventBy ∈ s.gpuSignals ∨ s.eventBy ∈ s.tails
  /-- Before the first store of a value, the GPU has set the event with the last signal it executed.
  -/
  automatic : s.fence.hasManualCompletedValue = false →
    s.eventBy = 0 ∧ s.executed = [] ∨ ∃ value, s.executed.getLast? = some (s.eventBy, value)
  sorted : s.executed.Pairwise fun p q => p.1 < q.1
  behind : ∀ n ∈ s.readbacks, ∀ p ∈ s.executed, n < p.1
  made : (∀ n ∈ s.cpuSignals, n ≤ s.signals.length) ∧ ∀ n ∈ s.readbacks, n ≤ s.signals.length

theorem OrderInv.create : OrderInv (create initial) where
  manual := iff_of_true rfl ⟨rfl, rfl⟩
  completed h := absurd h Bool.false_ne_true
  latest _ hn := absurd hn List.not_mem_nil
  event := Or.inl rfl
  automatic _ := Or.inl ⟨rfl, rfl⟩
  sorted := .nil
  behind _ hn := absurd hn List.not_mem_nil
  made := ⟨fun _ hn => absurd hn List.not_mem_nil, fun _ hn => absurd hn List.not_mem_nil⟩

/-- A step that neither signals nor stores. -/
structure SameOrder (s s' : FenceSystem) : Prop where
  cpuSignals : s'.cpuSignals = s.cpuSignals
  tails : s'.tails = s.tails
  gpuSignals : s'.gpuSignals = s.gpuSignals
  readbacks : s'.readbacks = s.readbacks

theorem OrderInv.same (h : OrderInv s) (hsame : SameValues s s') (horder : SameOrder s s') :
    OrderInv s' where
  manual := by rw [hsame.manual, horder.cpuSignals, horder.readbacks, h.manual]
  completed := by
    rw [hsame.manual, hsame.completedBy, horder.cpuSignals, horder.readbacks]
    exact h.completed
  latest := by
    rw [horder.cpuSignals, hsame.completedBy]
    exact h.latest
  event := by
    rw [hsame.eventBy, horder.gpuSignals, horder.tails]
    exact h.event
  automatic := by
    rw [hsame.manual, hsame.eventBy, hsame.executed]
    exact h.automatic
  sorted := hsame.executed ▸ h.sorted
  behind := by
    rw [horder.readbacks, hsame.executed]
    exact h.behind
  made := by
    rw [horder.cpuSignals, horder.readbacks, hsame.signals]
    exact h.made

theorem OrderInv.signalLocked (h : OrderInv s) (value : Nat) : OrderInv (s.signalLocked value) where
  manual := by
    refine iff_of_false (by exact Bool.noConfusion) fun hnone => ?_
    exact absurd hnone.1 (List.append_ne_nil_of_right_ne_nil _ (List.cons_ne_nil _ _))
  completed _ := Or.inl (List.mem_append_right _ (List.mem_singleton_self _))
  latest n hn := by
    rcases List.mem_append.mp hn with hn | hn
    · exact Nat.le_trans (h.made.1 n hn) (Nat.le_succ _)
    · exact Nat.le_of_eq (List.mem_singleton.mp hn)
  event := h.event
  automatic hmanual := absurd hmanual (by exact Bool.noConfusion)
  sorted := h.sorted
  behind := h.behind
  made := by
    show (∀ n ∈ s.cpuSignals ++ [_], n ≤ (s.signals ++ [value]).length) ∧
      ∀ n ∈ s.readbacks, n ≤ (s.signals ++ [value]).length
    rw [List.length_append, List.length_singleton]
    refine ⟨fun n hn => ?_, fun n hn => Nat.le_trans (h.made.2 n hn) (Nat.le_succ _)⟩
    rcases List.mem_append.mp hn with hn | hn
    · exact Nat.le_trans (h.made.1 n hn) (Nat.le_succ _)
    · exact Nat.le_of_eq (List.mem_singleton.mp hn)

theorem OrderInv.execute (h : OrderInv s) (hv : ValueInv s) (value : Nat) (rest : List Nat) :
    OrderInv (s.execute value rest) where
  manual := h.manual
  completed := h.completed
  latest := h.latest
  event := Or.inr (Or.inl (List.mem_append_right _ (List.mem_singleton_self _)))
  automatic _ := Or.inr ⟨value, List.getLast?_concat ..⟩
  sorted := by
    refine List.pairwise_append.mpr ⟨h.sorted, List.pairwise_singleton _ _, fun p hp q hq => ?_⟩
    rw [List.mem_singleton.mp hq]
    exact Nat.lt_succ_of_le (le_of_valueOf (hv.executed p hp))
  behind n hn p hp := by
    rcases List.mem_append.mp hp with hp | hp
    · exact h.behind n hn p hp
    · rw [List.mem_singleton.mp hp]
      exact Nat.lt_succ_of_le (h.made.2 n hn)
  made := by
    show (∀ n ∈ s.cpuSignals, n ≤ (s.signals ++ [value]).length) ∧
      ∀ n ∈ s.readbacks, n ≤ (s.signals ++ [value]).length
    rw [List.length_append, List.length_singleton]
    exact ⟨fun n hn => Nat.le_trans (h.made.1 n hn) (Nat.le_succ _),
      fun n hn => Nat.le_trans (h.made.2 n hn) (Nat.le_succ _)⟩

theorem OrderInv.complete {number value : Nat} {rest : List (Nat × Nat)} (h : OrderInv s)
    (hv : ValueInv s) (he : s.executed = (number, value) :: rest)
    (hcpu : ∀ n ∈ s.cpuSignals, n ≤ number) : OrderInv (s.complete number value rest) where
  manual := by
    refine iff_of_false (by exact Bool.noConfusion) fun hnone => ?_
    exact absurd hnone.2 (List.append_ne_nil_of_right_ne_nil _ (List.cons_ne_nil _ _))
  completed _ := Or.inr (List.mem_append_right _ (List.mem_singleton_self _))
  latest := hcpu
  event := h.event
  automatic hmanual := absurd hmanual (by exact Bool.noConfusion)
  sorted := (List.pairwise_cons.mp (he ▸ h.sorted)).2
  behind n hn p hp := by
    rcases List.mem_append.mp hn with hn | hn
    · exact h.behind n hn p (he ▸ List.mem_cons_of_mem _ hp)
    · rw [List.mem_singleton.mp hn]
      exact (List.pairwise_cons.mp (he ▸ h.sorted)).1 p hp
  made := by
    refine ⟨h.made.1, fun n hn => ?_⟩
    rcases List.mem_append.mp hn with hn | hn
    · exact h.made.2 n hn
    · rw [List.mem_singleton.mp hn]
      exact le_of_valueOf (hv.executed (number, value) (he ▸ List.mem_cons_self))

theorem OrderInv.storeEvent {i number value : Nat} {events callbacks : List Registration}
    (h : OrderInv s) (hv : ValueInv s)
    (hi : s.calls[i]? = some (.signaling number value events callbacks)) :
    OrderInv ((s.storeEvent number value).setCall i (.notifying events callbacks)) where
  manual := h.manual
  completed := h.completed
  latest := h.latest
  event := Or.inr (Or.inr (List.mem_append_right _ (List.mem_singleton_self _)))
  automatic hmanual := by
    have hcall := hv.manual _ _ _ _ (List.mem_of_getElem? hi)
    exact absurd (hcall.symm.trans hmanual) Bool.noConfusion
  sorted := h.sorted
  behind := h.behind
  made := h.made

/-- **A step in order is current**: what set the value is one of the steps that came before. -/
theorem OrderInv.current {e : FenceEvent} (h : OrderInv s) (hg : InOrder s e) : Current s e := by
  cases e with
  | complete =>
    intro number value rest he
    obtain ⟨hcpu, hfirst⟩ := hg number value rest he
    unfold valueBy
    split
    case isTrue hmanual =>
      rcases h.completed hmanual with hmem | hmem
      · exact hcpu _ hmem
      · exact Nat.le_of_lt (h.behind _ hmem (number, value) (he ▸ List.mem_cons_self))
    case isFalse hmanual =>
      rw [Bool.not_eq_true] at hmanual
      obtain ⟨hnocpu, hnoreadback⟩ := h.manual.mp hmanual
      rcases h.automatic hmanual with ⟨hzero, -⟩ | ⟨v, hlast⟩
      · exact hzero ▸ Nat.zero_le _
      · rw [he, hfirst hnocpu hnoreadback] at hlast
        cases hlast
        exact Nat.le_refl _
  | storeEvent i =>
    intro number value events callbacks hi
    obtain ⟨hgpu, htails⟩ := hg number value events callbacks hi
    rcases h.event with hzero | hmem | hmem
    · exact hzero ▸ Nat.zero_le _
    · exact hgpu _ hmem
    · exact htails _ hmem
  | createEvent i created => exact hg
  | signal value => trivial
  | submitFenceSignal submittedBatches hasWaited value => trivial
  | execute => trivial
  | setEventOnCompletion value => trivial
  | addCompletionCallback value => trivial
  | notify i => trivial
  | listened i => trivial

/-- A readback that comes too late finds the value of a later signal. -/
theorem OrderInv.overtaken {number value : Nat} {rest : List (Nat × Nat)} (h : OrderInv s)
    (he : s.executed = (number, value) :: rest) (hlate : ¬InOrder s .complete) :
    number < s.valueBy := by
  by_contra hle
  rw [Nat.not_lt] at hle
  refine hlate fun number' value' rest' he' => ?_
  obtain ⟨hhead, rfl⟩ := List.cons.inj (he.symm.trans he')
  obtain ⟨rfl, rfl⟩ := Prod.mk.inj hhead
  unfold valueBy at hle
  split at hle
  case isTrue hmanual =>
    refine ⟨fun n hn => Nat.le_trans (h.latest n hn) hle, fun hnocpu hnoreadback => ?_⟩
    exact absurd (h.manual.mpr ⟨hnocpu, hnoreadback⟩) (by rw [hmanual]; exact Bool.noConfusion)
  case isFalse hmanual =>
    rw [Bool.not_eq_true] at hmanual
    refine ⟨fun n hn => absurd hn ((h.manual.mp hmanual).1 ▸ List.not_mem_nil), fun _ _ => ?_⟩
    rcases h.automatic hmanual with ⟨-, hnone⟩ | ⟨v, hlast⟩
    · exact absurd (he.symm.trans hnone) (List.cons_ne_nil _ _)
    · by_contra hrest
      rw [he, List.getLast?_cons_of_ne_nil hrest] at hlast
      have hlt := (List.pairwise_cons.mp (he ▸ h.sorted)).1 _ (List.mem_of_getLast? hlast)
      simp only at hlt
      omega

theorem OrderInv.step {e : FenceEvent} (h : OrderInv s) (hv : ValueInv s) (hs : Step s e s')
    (hg : InOrder s e) : OrderInv s' := by
  cases hs with
  | signal value => exact h.signalLocked value
  | submitFenceSignal submittedBatches hasWaited value =>
    unfold FenceSystem.submitFenceSignal
    split
    · exact h.signalLocked value
    · exact ⟨h.manual, h.completed, h.latest, h.event, h.automatic, h.sorted, h.behind, h.made⟩
  | execute value rest hsub => exact h.execute hv value rest
  | complete number value rest he => exact h.complete hv he (hg number value rest he).1
  | setEventOnCompletion value =>
    refine h.same (.setEventOnCompletion value) ?_
    unfold FenceSystem.setEventOnCompletion
    dsimp only
    split
    · exact ⟨rfl, rfl, rfl, rfl⟩
    · exact ⟨rfl, rfl, rfl, rfl⟩
  | addCompletionCallback value =>
    refine h.same (.addCompletionCallback value) ?_
    unfold FenceSystem.addCompletionCallback
    dsimp only
    split
    · exact ⟨rfl, rfl, rfl, rfl⟩
    · exact ⟨rfl, rfl, rfl, rfl⟩
  | storeEvent i number value events callbacks hi => exact h.storeEvent hv hi
  | setEvent i r events callbacks hi =>
    exact ⟨h.manual, h.completed, h.latest, h.event, h.automatic, h.sorted, h.behind, h.made⟩
  | runCallback i r callbacks hi =>
    rw [runOnce_eq]
    exact ⟨h.manual, h.completed, h.latest, h.event, h.automatic, h.sorted, h.behind, h.made⟩
  | eventCreated i r hi =>
    exact ⟨h.manual, h.completed, h.latest, h.event, h.automatic, h.sorted, h.behind, h.made⟩
  | eventNotCreated i r hi =>
    exact ⟨h.manual, h.completed, h.latest, h.event, h.automatic, h.sorted, h.behind, h.made⟩
  | listened i r hi hr =>
    exact ⟨h.manual, h.completed, h.latest, h.event, h.automatic, h.sorted, h.behind, h.made⟩

/-! ## The registrations -/

/-- A registration that is pending, and due by no signal but those whose readback has not run. -/
def Waiting (s : FenceSystem) (p : PendingValue Registration) : Prop :=
  p.value = p.target.value ∧
    ∀ number, Due s p.target number → number ∈ s.executed.map Prod.fst

/-- Every registration is pending, in a call, or has fired, and the last two only after the fence
had the value. -/
structure PlacedInv (kind : RegistrationKind) (past : List FenceSystem) (s : FenceSystem) :
    Prop where
  waiting : ∀ p ∈ s.pending kind, Waiting s p
  known : ∀ p ∈ s.pending kind, p.target ∈ s.registered kind
  placed : ∀ r ∈ s.registered kind, r ∈ s.fired kind ∨ (∃ p ∈ s.pending kind, p.target = r) ∨
    ∃ call ∈ s.calls, r ∈ call.holds kind
  called : ∀ call ∈ s.calls, ∀ r ∈ call.holds kind, Held kind past r
  fired : ∀ r ∈ s.fired kind, Held kind past r

variable {kind : RegistrationKind} {past : List FenceSystem}

theorem Held.later {r : Registration} (h : Held kind past r) : Held kind (past ++ [s']) r := by
  obtain ⟨t, ht, hr⟩ := h
  exact ⟨t, List.mem_append_left _ ht, hr⟩

theorem Held.now {r : Registration} (hr : r ∈ s'.registered kind)
    (h : r.value ≤ s'.fence.getCompletedValueLocked ∨ s'.fence.hasReached r.value = true) :
    Held kind (past ++ [s']) r :=
  ⟨s', List.mem_append_right _ (List.mem_singleton_self s'), hr, h⟩

theorem PlacedInv.create : PlacedInv kind [create initial] (create initial) := by
  have hpending : (FenceSystem.create initial).pending kind = [] := by cases kind <;> rfl
  have hregistered : (FenceSystem.create initial).registered kind = [] := by cases kind <;> rfl
  have hfired : (FenceSystem.create initial).fired kind = [] := by cases kind <;> rfl
  refine ⟨?_, ?_, ?_, fun call hc => absurd hc List.not_mem_nil, ?_⟩
  · rw [hpending]
    exact fun p hp => absurd hp List.not_mem_nil
  · rw [hpending]
    exact fun p hp => absurd hp List.not_mem_nil
  · rw [hregistered]
    exact fun r hr => absurd hr List.not_mem_nil
  · rw [hfired]
    exact fun r hr => absurd hr List.not_mem_nil

/-- A call that goes on. What it no longer holds has fired, and what it takes up the fence had. -/
theorem PlacedInv.move {i : Nat} {call : FenceCall} (h : PlacedInv kind past s) (call' : FenceCall)
    (hi : s.calls[i]? = some call) (hcalls : s'.calls = s.calls.set i call')
    (hsignals : s'.signals = s.signals) (hinitial : s'.initial = s.initial)
    (hexecuted : s'.executed = s.executed) (hpending : s'.pending kind = s.pending kind)
    (hregistered : s'.registered kind = s.registered kind)
    (hfired : ∀ r ∈ s.fired kind, r ∈ s'.fired kind)
    (hleft : ∀ r ∈ call.holds kind, r ∈ call'.holds kind ∨ r ∈ s'.fired kind)
    (htaken : ∀ r ∈ call'.holds kind, r ∈ call.holds kind ∨ Held kind (past ++ [s']) r)
    (hnew : ∀ r ∈ s'.fired kind, r ∈ s.fired kind ∨ r ∈ call.holds kind) :
    PlacedInv kind (past ++ [s']) s' where
  waiting p hp := by
    obtain ⟨hvalue, hdue⟩ := h.waiting p (hpending ▸ hp)
    refine ⟨hvalue, fun number hnumber => ?_⟩
    rw [hexecuted]
    refine hdue number ?_
    unfold Due valueOf at hnumber ⊢
    rw [hinitial, hsignals] at hnumber
    exact hnumber
  known p hp := hregistered ▸ h.known p (hpending ▸ hp)
  placed r hr := by
    rw [hpending, hcalls]
    rcases h.placed r (hregistered ▸ hr) with hf | hp | ⟨c, hc, hrc⟩
    · exact Or.inl (hfired r hf)
    · exact Or.inr (Or.inl hp)
    · by_cases heq : c = call
      · subst heq
        rcases hleft r hrc with hr' | hr'
        · have hlt := (List.getElem?_eq_some_iff.mp hi).1
          exact Or.inr (Or.inr ⟨call', List.mem_set hlt call', hr'⟩)
        · exact Or.inl hr'
      · exact Or.inr (Or.inr ⟨c, mem_of_mem_flatMap_set hi hc heq, hrc⟩)
  called c hc r hr := by
    rw [hcalls] at hc
    rcases List.mem_or_eq_of_mem_set hc with hc | rfl
    · exact (h.called c hc r hr).later
    · exact (htaken r hr).elim (fun hr => (h.called call (List.mem_of_getElem? hi) r hr).later) id
  fired r hr := by
    rcases hnew r hr with hr | hr
    · exact (h.fired r hr).later
    · exact (h.called call (List.mem_of_getElem? hi) r hr).later

/-- The calls that a step starts, with what it registers. -/
theorem PlacedInv.enter {calls : List FenceCall} {ps : List (PendingValue Registration)}
    {rs : List Registration} (h : PlacedInv kind past s) (hcalls : s'.calls = s.calls ++ calls)
    (hsignals : s'.signals = s.signals) (hinitial : s'.initial = s.initial)
    (hexecuted : s'.executed = s.executed) (hpending : s'.pending kind = s.pending kind ++ ps)
    (hregistered : s'.registered kind = s.registered kind ++ rs)
    (hfired : s'.fired kind = s.fired kind) (hps : ∀ p ∈ ps, Waiting s' p ∧ p.target ∈ rs)
    (hrs : ∀ r ∈ rs, (∃ p ∈ ps, p.target = r) ∨ ∃ call ∈ calls, r ∈ call.holds kind)
    (hheld : ∀ call ∈ calls, ∀ r ∈ call.holds kind, Held kind (past ++ [s']) r) :
    PlacedInv kind (past ++ [s']) s' where
  waiting p hp := by
    rw [hpending] at hp
    rcases List.mem_append.mp hp with hp | hp
    · obtain ⟨hvalue, hdue⟩ := h.waiting p hp
      refine ⟨hvalue, fun number hnumber => ?_⟩
      rw [hexecuted]
      refine hdue number ?_
      unfold Due valueOf at hnumber ⊢
      rw [hinitial, hsignals] at hnumber
      exact hnumber
    · exact (hps p hp).1
  known p hp := by
    rw [hpending] at hp
    rw [hregistered]
    rcases List.mem_append.mp hp with hp | hp
    · exact List.mem_append_left _ (h.known p hp)
    · exact List.mem_append_right _ (hps p hp).2
  placed r hr := by
    rw [hregistered] at hr
    rw [hfired, hpending, hcalls]
    rcases List.mem_append.mp hr with hr | hr
    · rcases h.placed r hr with hf | ⟨p, hp, hpr⟩ | ⟨c, hc, hrc⟩
      · exact Or.inl hf
      · exact Or.inr (Or.inl ⟨p, List.mem_append_left _ hp, hpr⟩)
      · exact Or.inr (Or.inr ⟨c, List.mem_append_left _ hc, hrc⟩)
    · rcases hrs r hr with ⟨p, hp, hpr⟩ | ⟨c, hc, hrc⟩
      · exact Or.inr (Or.inl ⟨p, List.mem_append_right _ hp, hpr⟩)
      · exact Or.inr (Or.inr ⟨c, List.mem_append_right _ hc, hrc⟩)
  called c hc r hr := by
    rw [hcalls] at hc
    rcases List.mem_append.mp hc with hc | hc
    · exact (h.called c hc r hr).later
    · exact hheld c hc r hr
  fired r hr := (h.fired r (hfired ▸ hr)).later

/-- The calls that a step starts when it registers nothing. -/
theorem PlacedInv.idle {calls : List FenceCall} (h : PlacedInv kind past s)
    (hcalls : s'.calls = s.calls ++ calls) (hsignals : s'.signals = s.signals)
    (hinitial : s'.initial = s.initial) (hexecuted : s'.executed = s.executed)
    (hpending : s'.pending kind = s.pending kind)
    (hregistered : s'.registered kind = s.registered kind) (hfired : s'.fired kind = s.fired kind)
    (hheld : ∀ call ∈ calls, call.holds kind = []) : PlacedInv kind (past ++ [s']) s' := by
  refine h.enter hcalls hsignals hinitial hexecuted (hpending.trans (List.append_nil _).symm)
    (hregistered.trans (List.append_nil _).symm) hfired (fun p hp => absurd hp List.not_mem_nil)
    (fun r hr => absurd hr List.not_mem_nil) fun call hc r hr => ?_
  rw [hheld call hc] at hr
  exact absurd hr List.not_mem_nil

/-- A registration for a value that is reached goes into the call that makes it. -/
theorem PlacedInv.take {call : FenceCall} {q : Registration} (h : PlacedInv kind past s)
    (hcalls : s'.calls = s.calls ++ [call]) (hsignals : s'.signals = s.signals)
    (hinitial : s'.initial = s.initial) (hexecuted : s'.executed = s.executed)
    (hpending : s'.pending kind = s.pending kind)
    (hregistered : s'.registered kind = s.registered kind ++ [q])
    (hfired : s'.fired kind = s.fired kind) (hholds : call.holds kind = [q])
    (hheld : Held kind (past ++ [s']) q) : PlacedInv kind (past ++ [s']) s' := by
  refine h.enter hcalls hsignals hinitial hexecuted (hpending.trans (List.append_nil _).symm)
    hregistered hfired (fun p hp => absurd hp List.not_mem_nil)
    (fun r hr => Or.inr ⟨call, List.mem_singleton_self _, hholds ▸ hr⟩) fun c hc r hr => ?_
  cases List.mem_singleton.mp hc
  rw [hholds] at hr
  cases List.mem_singleton.mp hr
  exact hheld

/-- A registration for a value that is not reached goes onto the pending list. -/
theorem PlacedInv.suspend {calls : List FenceCall} {p : PendingValue Registration}
    (h : PlacedInv kind past s) (hcalls : s'.calls = s.calls ++ calls)
    (hsignals : s'.signals = s.signals) (hinitial : s'.initial = s.initial)
    (hexecuted : s'.executed = s.executed) (hpending : s'.pending kind = s.pending kind ++ [p])
    (hregistered : s'.registered kind = s.registered kind ++ [p.target])
    (hfired : s'.fired kind = s.fired kind) (hwaiting : Waiting s' p)
    (hheld : ∀ call ∈ calls, call.holds kind = []) : PlacedInv kind (past ++ [s']) s' := by
  refine h.enter hcalls hsignals hinitial hexecuted hpending hregistered hfired (fun q hq => ?_)
    (fun r hr => ?_) fun call hc r hr => ?_
  · cases List.mem_singleton.mp hq
    exact ⟨hwaiting, List.mem_singleton_self _⟩
  · cases List.mem_singleton.mp hr
    exact Or.inl ⟨p, List.mem_singleton_self _, rfl⟩
  · rw [hheld call hc] at hr
    exact absurd hr List.not_mem_nil

/-- A store under the lock: what it collects goes into the call, and the rest still waits. -/
theorem PlacedInv.collect {call : FenceCall} (h : PlacedInv kind past s) (value : Nat)
    (hcalls : s'.calls = s.calls ++ [call])
    (hholds : call.holds kind =
      ((s.pending kind).filter (fun p => ¬ value < p.value)).map (·.target))
    (hpending : s'.pending kind = (s.pending kind).filter (fun p => value < p.value))
    (hregistered : s'.registered kind = s.registered kind)
    (hfired : s'.fired kind = s.fired kind)
    (hvalue : s'.fence.getCompletedValueLocked = value)
    (hwaiting : ∀ p, Waiting s p → value < p.value → Waiting s' p) :
    PlacedInv kind (past ++ [s']) s' where
  waiting p hp := by
    rw [hpending, List.mem_filter, decide_eq_true_iff] at hp
    exact hwaiting p (h.waiting p hp.1) hp.2
  known p hp := by
    rw [hpending, List.mem_filter] at hp
    exact hregistered ▸ h.known p hp.1
  placed r hr := by
    rw [hfired, hpending, hcalls]
    rcases h.placed r (hregistered ▸ hr) with hf | ⟨p, hp, hpr⟩ | ⟨c, hc, hrc⟩
    · exact Or.inl hf
    · by_cases hlt : value < p.value
      · exact Or.inr (Or.inl ⟨p, List.mem_filter.mpr ⟨hp, decide_eq_true hlt⟩, hpr⟩)
      · refine Or.inr (Or.inr ⟨call, List.mem_append_right _ (List.mem_singleton_self _), ?_⟩)
        rw [hholds]
        exact List.mem_map.mpr ⟨p, List.mem_filter.mpr ⟨hp, decide_eq_true hlt⟩, hpr⟩
    · exact Or.inr (Or.inr ⟨c, List.mem_append_left _ hc, hrc⟩)
  called c hc r hr := by
    rw [hcalls] at hc
    rcases List.mem_append.mp hc with hc | hc
    · exact (h.called c hc r hr).later
    · rw [List.mem_singleton.mp hc, hholds] at hr
      obtain ⟨p, hp, rfl⟩ := List.mem_map.mp hr
      rw [List.mem_filter, decide_eq_true_iff] at hp
      refine Held.now (hregistered ▸ h.known p hp.1) (Or.inl ?_)
      rw [hvalue, ← (h.waiting p hp.1).1]
      exact Nat.le_of_not_lt hp.2
  fired r hr := (h.fired r (hfired ▸ hr)).later

/-- A signal that is added may be due for what waits. -/
theorem due_append {r : Registration} {number v : Nat} (hinitial : s'.initial = s.initial)
    (hsignals : s'.signals = s.signals ++ [v]) (h : Due s' r number) :
    Due s r number ∨ number = s.signals.length + 1 ∧ r.value ≤ v := by
  obtain ⟨hbirth, value, hvalue, hle⟩ := h
  have hlast := le_of_valueOf hvalue
  rw [hsignals, List.length_append, List.length_singleton] at hlast
  by_cases heq : number = s.signals.length + 1
  · subst heq
    rw [valueOf_last hsignals] at hvalue
    cases hvalue
    exact Or.inr ⟨rfl, hle⟩
  · refine Or.inl ⟨hbirth, value, ?_, hle⟩
    unfold valueOf at hvalue ⊢
    rw [hinitial, hsignals, ← List.cons_append, List.getElem?_append_left
      (by rw [List.length_cons]; omega)] at hvalue
    exact hvalue

theorem PlacedInv.signalLocked (h : PlacedInv kind past s) (value : Nat) :
    PlacedInv kind (past ++ [s.signalLocked value]) (s.signalLocked value) := by
  refine h.collect value rfl ?_ ?_ ?_ ?_ rfl fun p hp hlt => ⟨hp.1, fun number hdue => ?_⟩
  · cases kind <;> rfl
  · cases kind <;> rfl
  · cases kind <;> rfl
  · cases kind <;> rfl
  · rcases @due_append s (s.signalLocked value) _ _ _ rfl rfl hdue with hdue | ⟨-, hle⟩
    · exact hp.2 number hdue
    · have := hp.1
      omega

theorem PlacedInv.complete {number value : Nat} {rest : List (Nat × Nat)}
    (h : PlacedInv kind past s) (he : s.executed = (number, value) :: rest)
    (hv : s.valueOf number = some value) :
    PlacedInv kind (past ++ [s.complete number value rest]) (s.complete number value rest) := by
  refine h.collect value rfl ?_ ?_ ?_ ?_ rfl fun p hp hlt => ⟨hp.1, fun n hdue => ?_⟩
  · cases kind <;> rfl
  · cases kind <;> rfl
  · cases kind <;> rfl
  · cases kind <;> rfl
  · have hmem := hp.2 n hdue
    rw [he, List.map_cons, List.mem_cons] at hmem
    refine hmem.resolve_left fun heq => ?_
    -- the signal of the readback is not due, because the registration is for a larger value
    obtain ⟨-, v, hval, hle⟩ := hdue
    change s.valueOf n = some v at hval
    rw [heq, hv] at hval
    cases hval
    have := hp.1
    omega

theorem PlacedInv.execute (h : PlacedInv kind past s) (value : Nat) (rest : List Nat) :
    PlacedInv kind (past ++ [s.execute value rest]) (s.execute value rest) := by
  have hpending : (s.execute value rest).pending kind = s.pending kind := by cases kind <;> rfl
  have hregistered : (s.execute value rest).registered kind = s.registered kind := by
    cases kind <;> rfl
  have hfired : (s.execute value rest).fired kind = s.fired kind := by cases kind <;> rfl
  refine ⟨fun p hp => ?_, fun p hp => ?_, fun r hr => ?_, fun c hc r hr =>
    (h.called c hc r hr).later,
    fun r hr => (h.fired r (hfired ▸ hr)).later⟩
  · obtain ⟨hvalue, hdue⟩ := h.waiting p (hpending ▸ hp)
    refine ⟨hvalue, fun number hnumber => ?_⟩
    show number ∈ (s.executed ++ [_]).map Prod.fst
    rw [List.map_append]
    rcases @due_append s (s.execute value rest) _ _ _ rfl rfl hnumber with hnumber | ⟨rfl, -⟩
    · exact List.mem_append_left _ (hdue number hnumber)
    · exact List.mem_append_right _ (List.mem_singleton_self _)
  · exact hregistered ▸ h.known p (hpending ▸ hp)
  · rw [hpending, hfired]
    exact h.placed r (hregistered ▸ hr)

/-- No signal comes after the registration yet. -/
theorem waiting_new (id value : Nat) : Waiting s ⟨value, ⟨id, value, s.signals.length⟩⟩ := by
  refine ⟨rfl, fun number hdue => ?_⟩
  obtain ⟨hbirth, v, hv, -⟩ := hdue
  have := le_of_valueOf hv
  exact absurd hbirth (by dsimp only; omega)

theorem PlacedInv.setEventOnCompletion (h : PlacedInv kind past s) (value : Nat) :
    PlacedInv kind (past ++ [s.setEventOnCompletion value]) (s.setEventOnCompletion value) := by
  unfold FenceSystem.setEventOnCompletion
  dsimp only
  split
  case isTrue hreached =>
    cases kind with
    | event =>
      exact h.take rfl rfl rfl rfl rfl rfl rfl rfl
        (Held.now (List.mem_append_right _ (List.mem_singleton_self _)) (Or.inl hreached))
    | callback =>
      refine h.idle rfl rfl rfl rfl rfl rfl rfl fun call hc => ?_
      cases List.mem_singleton.mp hc
      rfl
  case isFalse hreached =>
    cases kind with
    | event =>
      exact h.suspend (List.append_nil _).symm rfl rfl rfl rfl rfl rfl (waiting_new _ _)
        fun call hc => absurd hc List.not_mem_nil
    | callback =>
      exact h.idle (List.append_nil _).symm rfl rfl rfl rfl rfl rfl
        fun call hc => absurd hc List.not_mem_nil

theorem PlacedInv.addCompletionCallback (h : PlacedInv kind past s) (value : Nat) :
    PlacedInv kind (past ++ [s.addCompletionCallback value]) (s.addCompletionCallback value) := by
  unfold FenceSystem.addCompletionCallback
  dsimp only
  split
  case isTrue hreached =>
    cases kind with
    | event =>
      refine h.idle rfl rfl rfl rfl rfl rfl rfl fun call hc => ?_
      cases List.mem_singleton.mp hc
      rfl
    | callback =>
      exact h.take rfl rfl rfl rfl rfl rfl rfl rfl
        (Held.now (List.mem_append_right _ (List.mem_singleton_self _)) (Or.inl hreached))
  case isFalse hreached =>
    cases kind with
    | event =>
      refine h.idle rfl rfl rfl rfl rfl rfl rfl fun call hc => ?_
      cases List.mem_singleton.mp hc
      rfl
    | callback =>
      refine h.suspend rfl rfl rfl rfl rfl rfl rfl (waiting_new _ _) fun call hc => ?_
      cases List.mem_singleton.mp hc
      rfl

/-- What `AddCompletionCallback` arms is registered. -/
def Armed (s : FenceSystem) : Prop :=
  ∀ call ∈ s.calls, ∀ r ∈ call.arms, r ∈ s.callbacks

theorem mem_firedCallbacks_runOnce {r q : Registration} :
    q ∈ (s.runOnce r).firedCallbacks ↔ q ∈ s.firedCallbacks ∨ q = r := by
  rw [runOnce_eq]
  dsimp only
  split
  case isTrue hmem =>
    exact ⟨Or.inl, fun h => h.elim id fun he => he ▸ hmem⟩
  case isFalse => rw [List.mem_append, List.mem_singleton]

/-- **A current step** keeps every registration in its place. -/
theorem PlacedInv.step {e : FenceEvent} (h : PlacedInv kind past s) (hv : ValueInv s) (ha : Armed s)
    (hs : Step s e s') (hg : Current s e) : PlacedInv kind (past ++ [s']) s' := by
  cases hs with
  | signal value => exact h.signalLocked value
  | submitFenceSignal submittedBatches hasWaited value =>
    unfold FenceSystem.submitFenceSignal
    split
    · exact h.signalLocked value
    · refine h.idle (List.append_nil _).symm rfl rfl rfl ?_ ?_ ?_
        fun call hc => absurd hc List.not_mem_nil
      · cases kind <;> rfl
      · cases kind <;> rfl
      · cases kind <;> rfl
  | execute value rest hsub => exact h.execute value rest
  | complete number value rest he =>
    exact h.complete he (hv.executed (number, value) (he ▸ List.mem_cons_self))
  | setEventOnCompletion value => exact h.setEventOnCompletion value
  | addCompletionCallback value => exact h.addCompletionCallback value
  | storeEvent i number value events callbacks hi =>
    have hholds : (FenceCall.notifying events callbacks).holds kind =
        (FenceCall.signaling number value events callbacks).holds kind := by cases kind <;> rfl
    refine h.move _ hi rfl rfl rfl rfl ?_ ?_ ?_ (fun r hr => Or.inl (hholds ▸ hr))
      (fun r hr => Or.inl (hholds ▸ hr)) ?_
    · cases kind <;> rfl
    · cases kind <;> rfl
    · cases kind <;> exact fun r hr => hr
    · cases kind <;> exact fun r hr => Or.inl hr
  | setEvent i r events callbacks hi =>
    cases kind with
    | event =>
      refine h.move _ hi rfl rfl rfl rfl rfl rfl (fun q hq => List.mem_append_left _ hq)
        (fun q hq => ?_)
        (fun q hq => Or.inl (List.mem_cons_of_mem _ hq)) fun q hq => ?_
      · rcases List.mem_cons.mp hq with rfl | hq
        · exact Or.inr (List.mem_append_right _ (List.mem_singleton_self _))
        · exact Or.inl hq
      · refine (List.mem_append.mp hq).imp id fun hq => ?_
        cases List.mem_singleton.mp hq
        exact List.mem_cons_self
    | callback =>
      exact h.move _ hi rfl rfl rfl rfl rfl rfl (fun q hq => hq) (fun q hq => Or.inl hq)
        (fun q hq => Or.inl hq) fun q hq => Or.inl hq
  | runCallback i r callbacks hi =>
    have hrun := runOnce_eq (s := s) r
    cases kind with
    | event =>
      rw [hrun]
      exact h.move _ hi rfl rfl rfl rfl rfl rfl (fun q hq => hq) (fun q hq => Or.inl hq)
        (fun q hq => Or.inl hq) fun q hq => Or.inl hq
    | callback =>
      refine h.move (.notifying [] callbacks) hi (by rw [hrun]; rfl) (by rw [hrun]; rfl)
        (by rw [hrun]; rfl) (by rw [hrun]; rfl)
        (by rw [hrun]; rfl) (by rw [hrun]; rfl)
        (fun q hq => mem_firedCallbacks_runOnce.mpr (Or.inl hq)) (fun q hq => ?_)
        (fun q (hq : q ∈ callbacks) => Or.inl (List.mem_cons_of_mem _ hq)) fun q hq => ?_
      · rcases List.mem_cons.mp hq with rfl | hq
        · exact Or.inr (mem_firedCallbacks_runOnce.mpr (Or.inr rfl))
        · exact Or.inl hq
      · refine (mem_firedCallbacks_runOnce.mp hq).imp id fun hq => ?_
        exact hq ▸ List.mem_cons_self
  | eventCreated i r hi =>
    have hnone : (FenceCall.creating r).holds kind = [] := by cases kind <;> rfl
    have hnone' : (FenceCall.listening r).holds kind = [] := by cases kind <;> rfl
    refine h.move _ hi rfl rfl rfl rfl ?_ ?_ ?_ (fun q hq => absurd (hnone ▸ hq) List.not_mem_nil)
      (fun p hp => absurd (hnone' ▸ hp) List.not_mem_nil) ?_
    · cases kind <;> rfl
    · cases kind <;> rfl
    · cases kind <;> exact fun r hr => hr
    · cases kind <;> exact fun r hr => Or.inl hr
  | eventNotCreated i r hi => cases hg
  | listened i r hi hr =>
    have hnone : (FenceCall.listening r).holds kind = [] := by cases kind <;> rfl
    refine h.move _ hi rfl rfl rfl rfl ?_ ?_ ?_ (fun q hq =>
        absurd (hnone ▸ hq) List.not_mem_nil) ?_ ?_
    · cases kind <;> rfl
    · cases kind <;> rfl
    · cases kind <;> exact fun r hr => hr
    · intro q hq
      cases kind with
      | event => exact absurd hq List.not_mem_nil
      | callback =>
        cases List.mem_singleton.mp hq
        exact Or.inr (Held.now (ha _ (List.mem_of_getElem? hi) r (List.mem_singleton_self r))
            (Or.inr hr))
    · cases kind <;> exact fun r hr => Or.inl hr

theorem Armed.move {i : Nat} {call : FenceCall} (h : Armed s) (call' : FenceCall)
    (hi : s.calls[i]? = some call)
    (hcall : ∀ r ∈ call'.arms, r ∈ call.arms) : Armed (s.setCall i call') := by
  intro c hc r hr
  rcases List.mem_or_eq_of_mem_set hc with hc | rfl
  · exact h c hc r hr
  · exact h call (List.mem_of_getElem? hi) r (hcall r hr)

theorem Armed.enter {calls : List FenceCall} {rs : List Registration} (h : Armed s)
    (hcalls : s'.calls = s.calls ++ calls) (hcallbacks : s'.callbacks = s.callbacks ++ rs)
    (hnew : ∀ call ∈ calls, ∀ r ∈ call.arms, r ∈ rs) : Armed s' := by
  intro c hc r hr
  rw [hcalls] at hc
  rw [hcallbacks]
  rcases List.mem_append.mp hc with hc | hc
  · exact List.mem_append_left _ (h c hc r hr)
  · exact List.mem_append_right _ (hnew c hc r hr)

theorem Armed.enter_one {call : FenceCall} (h : Armed s) (hcalls : s'.calls = s.calls ++ [call])
    (hcallbacks : s'.callbacks = s.callbacks) (hcall : call.arms = []) : Armed s' :=
  h.enter hcalls (hcallbacks.trans (List.append_nil _).symm) fun c hc r hr => by
    cases List.mem_singleton.mp hc
    exact hcall ▸ hr

theorem Armed.step {e : FenceEvent} (h : Armed s) (hs : Step s e s') : Armed s' := by
  cases hs with
  | signal value => exact h.enter_one rfl rfl rfl
  | submitFenceSignal submittedBatches hasWaited value =>
    unfold FenceSystem.submitFenceSignal
    split
    · exact h.enter_one rfl rfl rfl
    · exact h
  | execute value rest hsub => exact h
  | complete number value rest he => exact h.enter_one rfl rfl rfl
  | setEventOnCompletion value =>
    unfold FenceSystem.setEventOnCompletion
    dsimp only
    split
    · exact h.enter_one rfl rfl rfl
    · exact h
  | addCompletionCallback value =>
    unfold FenceSystem.addCompletionCallback
    dsimp only
    split
    · refine h.enter rfl rfl fun c hc r hr => ?_
      cases List.mem_singleton.mp hc
      exact absurd hr List.not_mem_nil
    · refine h.enter rfl rfl fun c hc r hr => ?_
      cases List.mem_singleton.mp hc
      exact hr
  | storeEvent i number value events callbacks hi =>
    exact Armed.move (s := s.storeEvent number value) h _ hi fun r hr => absurd hr List.not_mem_nil
  | setEvent i r events callbacks hi =>
    exact Armed.move (s := s.setEvent r) h _ hi fun r hr => absurd hr List.not_mem_nil
  | runCallback i r callbacks hi =>
    rw [runOnce_eq]
    exact Armed.move h (.notifying [] callbacks) hi fun r hr => absurd hr List.not_mem_nil
  | eventCreated i r hi => exact h.move _ hi fun r hr => hr
  | eventNotCreated i r hi => exact h.move _ hi fun r hr => absurd hr List.not_mem_nil
  | listened i r hi hr => exact h.move _ hi fun r hr => absurd hr List.not_mem_nil

/-- An event is in one place, and a callback runs once. -/
structure OnceInv (s : FenceSystem) : Prop where
  placed : ∀ r, (s.fence.pendingEvents.map (·.target)).count r +
    (s.calls.flatMap (·.holds .event)).count r + s.firedEvents.count r = s.events.count r
  ids : s.events.map (·.id) = List.range s.events.length
  callbacks : s.firedCallbacks.Nodup

theorem OnceInv.create : OnceInv (create initial) where
  placed _ := rfl
  ids := rfl
  callbacks := List.nodup_nil

theorem OnceInv.events_nodup (h : OnceInv s) : s.events.Nodup :=
  List.Nodup.of_map _ (h.ids ▸ List.nodup_range)

theorem OnceInv.fired (h : OnceInv s) (kind : RegistrationKind) : (s.fired kind).Nodup := by
  cases kind with
  | event =>
    refine List.nodup_iff_count_le_one.mpr fun r => ?_
    have hplaced := h.placed r
    have hle := List.nodup_iff_count_le_one.mp h.events_nodup r
    show s.firedEvents.count r ≤ 1
    omega
  | callback => exact h.callbacks

/-- What a call holds before and behind a step of it. -/
theorem count_holds_set {calls : List FenceCall} {i : Nat} {call : FenceCall}
    (hi : calls[i]? = some call) (call' : FenceCall) (r : Registration) :
    ((calls.set i call').flatMap (·.holds .event)).count r + (call.holds .event).count r =
      (calls.flatMap (·.holds .event)).count r + (call'.holds .event).count r :=
  count_flatMap_set hi (·.holds .event) call' r

/-- A call goes on and holds the same events. -/
theorem OnceInv.move {i : Nat} {call : FenceCall} (h : OnceInv s) (call' : FenceCall)
    (hi : s.calls[i]? = some call)
    (hholds : call'.holds .event = call.holds .event) : OnceInv (s.setCall i call') where
  placed r := by
    have hset := count_holds_set hi call' r
    have hplaced := h.placed r
    rw [hholds] at hset
    unfold FenceSystem.setCall
    dsimp only
    omega
  ids := h.ids
  callbacks := h.callbacks

/-- What a store collects leaves the pending events for the call. -/
theorem OnceInv.collect {call : FenceCall} (h : OnceInv s) (value : Nat)
    (hcalls : s'.calls = s.calls ++ [call])
    (hholds : call.holds .event =
      (s.fence.pendingEvents.filter (fun p => ¬ value < p.value)).map (·.target))
    (hpending : s'.fence.pendingEvents = s.fence.pendingEvents.filter (fun p => value < p.value))
    (hevents : s'.events = s.events) (hfired : s'.firedEvents = s.firedEvents)
    (hcallbacks : s'.firedCallbacks = s.firedCallbacks) : OnceInv s' where
  placed r := by
    have hplaced := h.placed r
    have hperm := (List.filter_append_perm (fun p => decide (value < p.value))
      s.fence.pendingEvents).map (·.target)
    have hcount := hperm.count_eq r
    rw [List.map_append, List.count_append] at hcount
    have hnot : (fun p : PendingValue Registration => decide (¬ value < p.value)) =
        fun p => !decide (value < p.value) := funext fun p => decide_not
    rw [hcalls, hpending, hevents, hfired, List.flatMap_append, List.count_append,
      List.flatMap_singleton, hholds, hnot]
    omega
  ids := hevents ▸ h.ids
  callbacks := hcallbacks ▸ h.callbacks

/-- A call that holds no event. -/
theorem OnceInv.enter {call : FenceCall} (h : OnceInv s) (hcalls : s'.calls = s.calls ++ [call])
    (hholds : call.holds .event = []) (hpending : s'.fence.pendingEvents = s.fence.pendingEvents)
    (hevents : s'.events = s.events) (hfired : s'.firedEvents = s.firedEvents)
    (hcallbacks : s'.firedCallbacks = s.firedCallbacks) : OnceInv s' where
  placed r := by
    rw [hcalls, hpending, hevents, hfired, List.flatMap_append, List.flatMap_singleton, hholds,
      List.append_nil]
    exact h.placed r
  ids := hevents ▸ h.ids
  callbacks := hcallbacks ▸ h.callbacks

/-- A new event goes to one place. -/
theorem OnceInv.setEventOnCompletion (h : OnceInv s) (value : Nat) :
    OnceInv (s.setEventOnCompletion value) := by
  have hids (r : Registration) (hr : r.id = s.events.length) :
      (s.events ++ [r]).map (·.id) = List.range (s.events ++ [r]).length := by
    rw [List.map_append, List.length_append, h.ids, List.length_singleton, List.range_succ,
      List.map_singleton, hr]
  unfold FenceSystem.setEventOnCompletion
  dsimp only
  split
  · refine ⟨fun r => ?_, hids _ rfl, h.callbacks⟩
    have hplaced := h.placed r
    dsimp only
    rw [List.flatMap_append, List.flatMap_singleton, List.count_append, List.count_append]
    show _ + (_ + [_].count r) + _ = _
    omega
  · refine ⟨fun r => ?_, hids _ rfl, h.callbacks⟩
    have hplaced := h.placed r
    unfold FenceImpl.pushEvent
    dsimp only
    rw [List.map_append, List.count_append, List.count_append, List.map_singleton]
    dsimp only
    omega

theorem nodup_firedCallbacks_runOnce {r : Registration} (h : s.firedCallbacks.Nodup) :
    (s.runOnce r).firedCallbacks.Nodup := by
  unfold runOnce
  split
  case isTrue => exact h
  case isFalse hmem => exact h.append (List.nodup_singleton r) (List.disjoint_singleton.mpr hmem)

theorem OnceInv.step {e : FenceEvent} (h : OnceInv s) (hs : Step s e s') : OnceInv s' := by
  cases hs with
  | signal value => exact h.collect value rfl rfl rfl rfl rfl rfl
  | submitFenceSignal submittedBatches hasWaited value =>
    unfold FenceSystem.submitFenceSignal
    split
    · exact h.collect value rfl rfl rfl rfl rfl rfl
    · exact ⟨h.placed, h.ids, h.callbacks⟩
  | execute value rest hsub => exact ⟨h.placed, h.ids, h.callbacks⟩
  | complete number value rest he => exact h.collect value rfl rfl rfl rfl rfl rfl
  | setEventOnCompletion value => exact h.setEventOnCompletion value
  | addCompletionCallback value =>
    unfold FenceSystem.addCompletionCallback
    dsimp only
    split
    · exact h.enter rfl rfl rfl rfl rfl rfl
    · exact h.enter rfl rfl rfl rfl rfl rfl
  | storeEvent i number value events callbacks hi =>
    exact OnceInv.move (s := s.storeEvent number value) ⟨h.placed, h.ids, h.callbacks⟩ _ hi rfl
  | setEvent i r events callbacks hi =>
    refine ⟨fun q => ?_, h.ids, h.callbacks⟩
    have hset := count_holds_set hi (.notifying events callbacks) q
    have hplaced := h.placed q
    change _ + (r :: events).count q = _ + events.count q at hset
    rw [List.count_cons] at hset
    unfold FenceSystem.setCall FenceSystem.setEvent
    dsimp only
    rw [List.count_append, List.count_singleton]
    omega
  | runCallback i r callbacks hi =>
    have hnodup := nodup_firedCallbacks_runOnce (r := r) h.callbacks
    have hinv : OnceInv (s.runOnce r) := by
      rw [runOnce_eq] at hnodup ⊢
      exact ⟨h.placed, h.ids, hnodup⟩
    have hcalls : (s.runOnce r).calls[i]? = some (.notifying [] (r :: callbacks)) := by
      rw [runOnce_eq]
      exact hi
    exact hinv.move (.notifying [] callbacks) hcalls rfl
  | eventCreated i r hi => exact h.move _ hi rfl
  | eventNotCreated i r hi => exact h.move _ hi rfl
  | listened i r hi hr => exact h.move _ hi rfl

/-! ## The run -/

/-- Nothing is due any more: the last signal has set both values. -/
theorem ValueInv.agree (h : ValueInv s) (hq : Quiescent s) :
    s.valueOf s.signals.length = some s.fence.getCompletedValueLocked ∧
      s.fence.event = s.fence.getCompletedValueLocked := by
  obtain ⟨hcalls, -, hexecuted⟩ := hq
  have hvalue : s.valueBy = s.signals.length := h.latestValue.resolve_right fun hmem => by
    rw [hexecuted] at hmem
    exact absurd hmem List.not_mem_nil
  have hevent : s.eventBy = s.signals.length := h.latestEvent.resolve_right fun ⟨_, _, _, hc⟩ => by
    exact absurd (hcalls _ hc) Bool.false_ne_true
  have hlast := h.value
  rw [hvalue] at hlast
  refine ⟨hlast, ?_⟩
  have hlast' := h.event
  rw [hevent, hlast] at hlast'
  exact (Option.some.inj hlast').symm

/-- What is known of a run whose steps are in order. -/
structure RunInv (past : List FenceSystem) (s : FenceSystem) : Prop where
  values : ValueInv s
  order : OrderInv s
  armed : Armed s
  once : OnceInv s
  placed : ∀ kind, PlacedInv kind past s
  forward : ∀ t ∈ past, t.valueBy ≤ s.valueBy
  last : s ∈ past

theorem RunInv.create : RunInv [create initial] (create initial) where
  values := .create
  order := .create
  armed _ hc := absurd hc List.not_mem_nil
  once := .create
  placed _ := .create
  forward _ ht := List.mem_singleton.mp ht ▸ Nat.le_refl _
  last := List.mem_singleton_self _

theorem RunInv.step {e : FenceEvent} (h : RunInv past s) (hs : Step s e s') (hg : InOrder s e) :
    RunInv (past ++ [s']) s' := by
  have hcurrent := h.order.current hg
  obtain ⟨hvalues, hle⟩ := h.values.step hs hcurrent
  refine ⟨hvalues, h.order.step h.values hs hg, h.armed.step hs, h.once.step hs,
    fun kind => (h.placed kind).step h.values h.armed hs hcurrent, fun t ht => ?_,
    List.mem_append_right _ (List.mem_singleton_self _)⟩
  rcases List.mem_append.mp ht with ht | ht
  · exact Nat.le_trans (h.forward t ht) hle
  · exact List.mem_singleton.mp ht ▸ Nat.le_refl _

/-- **The run**, by induction on its steps. -/
theorem Run.inv (h : Run InOrder initial past s) : RunInv past s := by
  induction h with
  | create => exact .create
  | step e hrun hs hg ih => exact ih.step hs hg

theorem RunInv.contract (h : RunInv past s) : Contract past s := by
  refine ⟨h.values.agree, h.values.value, h.forward, h.once.fired, fun kind =>
    (h.placed kind).fired,
    fun kind r hr number hdue => ?_⟩
  rcases (h.placed kind).placed r hr with hf | ⟨p, hpending, rfl⟩ | hc
  · exact Or.inl hf
  · exact Or.inr (Or.inl (((h.placed kind).waiting p hpending).2 number hdue))
  · exact Or.inr (Or.inr hc)

/-- **Main result.** In a run whose steps are in order the three values agree at rest, the completed
value does not go back, and every registration fires once, not before its value and no later than
the calls and the readback of a signal that has it. A readback that is not in order then takes the
value back. -/
theorem fence_contract (h : Run InOrder initial past s) :
    Contract past s ∧
      ∀ s', Step s .complete s' → ¬InOrder s .complete → ¬Contract (past ++ [s']) s' := by
  have hinv := h.inv
  refine ⟨hinv.contract, fun s' hs hlate hcontract => ?_⟩
  cases hs with
  | complete number value rest he =>
    have hover := hinv.order.overtaken he hlate
    have hback := hcontract.forward s (List.mem_append_left _ hinv.last)
    change s.valueBy ≤ number at hback
    omega

/-- A handle waits for a signal of a queue, and is set by its readback. -/
theorem fence_contract_readback : ∃ past s, s.firedEvents = [⟨0, 1, 0⟩] ∧ Quiescent s ∧
    Contract past s := by
  have h0 : Run InOrder 0 _ _ := .create
  have h1 := h0.step _ (.setEventOnCompletion 1) trivial
  have h2 := h1.step _ (.submitFenceSignal 1 false 1) trivial
  have h3 := h2.step _ (.execute 1 [] rfl) trivial
  have h4 := h3.step _ (.complete 1 1 [] rfl) fun number value rest he => by
    cases he
    exact ⟨fun n hn => absurd hn List.not_mem_nil, fun _ _ => rfl⟩
  have h5 := h4.step _ (.setEvent 0 ⟨0, 1, 0⟩ [] [] rfl) trivial
  refine ⟨_, _, rfl, ⟨fun call hc => ?_, rfl, rfl⟩, (fence_contract h5).1⟩
  cases List.mem_singleton.mp hc
  rfl

/-- The GPU executes a signal of 5, the CPU signals 7, and then the readback stores 5. -/
theorem readback_behind_signal : ¬ ∀ past s, Run (fun _ _ => True) 0 past s → Contract past s := by
  intro h
  have h0 : Run (fun _ _ => True) 0 _ _ := .create
  have h1 := h0.step _ (.submitFenceSignal 1 false 5) trivial
  have h2 := h1.step _ (.execute 5 [] rfl) trivial
  have h3 := h2.step _ (.signal 7) trivial
  have h4 := h3.step _ (.storeEvent 0 2 7 [] [] rfl) trivial
  have h5 := h4.step _ (.complete 1 5 [] rfl) trivial
  have hagree := (h _ _ h5).agree ⟨fun call hc => ?_, rfl, rfl⟩
  · exact absurd hagree.2 (by decide)
  · rcases List.mem_cons.mp hc with rfl | hc
    · rfl
    · cases List.mem_singleton.mp hc
      rfl

end FenceSystem

end Dxmt
