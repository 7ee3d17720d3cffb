import Dxmt.CommandAllocator

/-!
# Records of closed command lists: `AddRecord`, `Close`, `Reset`, `ExecuteBundle`

What a command list has recorded is a vector of records. All calls that record go through
`AddRecord`, which does nothing on a closed list, but for `ExecuteBundle`, which appends the records
of the bundle to the vector itself.

Headlines:
* **`closed_list_unchanged`**: in every run in which no bundle with records is executed on a closed
  list, a closed list keeps its records up to the next `Reset` that succeeds, allocators are held by
  the lists that are open, and a `Reset` that fails changes nothing.
* **`bundle_in_closed_list`**: a closed list that executes a bundle has new records.

A record is any payload. The calls are given by what they record, so a run has any arguments of any
of them.

Source: `d3d12_command_list.cpp:142-305, 308-930`.
-/

namespace Dxmt

/-- What a list has recorded, and the resolves that `EndRenderPass` will record. -/
structure RecordedCommands (Payload : Type) where
  records : List Payload := []
  pendingRenderPassResolves : List Payload := []

/-- The calls that record. -/
inductive RecordingCall (Payload : Type) where
  /-- `ClearState` and `SetPipelineState`; `compatible` is the answer of
  `IsPipelineStateCompatible`. -/
  | setPipelineState (compatible : Bool) (payload : Payload)
  | resourceBarrier (valid : Bool) (payload : Payload)
  | beginRenderPass (suspended : Bool) (payloads resolves : List Payload)
  | endRenderPass
  /-- The other calls record something or, with arguments that they refuse, nothing. -/
  | other (payload : Option Payload)

/-- The device with what every list has recorded. -/
structure RecordingDevice (Payload : Type) where
  device : AllocatorDevice := {}
  commands : Nat → RecordedCommands Payload := fun _ => {}

namespace RecordingDevice

variable {Payload : Type}

/-- Changes the records of one list. -/
def setCommands (s : RecordingDevice Payload) (l : Nat) (commands : RecordedCommands Payload) :
    RecordingDevice Payload :=
  { s with commands := Function.update s.commands l commands }

/-- The list is closed. -/
def isClosed (s : RecordingDevice Payload) (l : Nat) : Bool :=
  (s.device.lists l).any (·.closed)

/-- `AddRecord`, for one payload after the other. -/
def addRecords (s : RecordingDevice Payload) (l : Nat) (payloads : List Payload) :
    RecordingDevice Payload :=
  if s.isClosed l then s
  else s.setCommands l { s.commands l with records := (s.commands l).records ++ payloads }

/-- One recording call; what is refused adds no record. -/
def record (s : RecordingDevice Payload) (l : Nat) : RecordingCall Payload → RecordingDevice Payload
  | .setPipelineState compatible payload => if compatible then s.addRecords l [payload] else s
  | .resourceBarrier valid payload =>
    (if valid then s else { s with device := s.device.recordError l }).addRecords l [payload]
  | .beginRenderPass suspended payloads resolves =>
    let s := s.setCommands l { s.commands l with pendingRenderPassResolves := [] }
    if suspended then s
    else
      let s := s.addRecords l payloads
      s.setCommands l { s.commands l with pendingRenderPassResolves := resolves }
  | .endRenderPass =>
    let s := s.addRecords l (s.commands l).pendingRenderPassResolves
    s.setCommands l { s.commands l with pendingRenderPassResolves := [] }
  | .other payload => s.addRecords l payload.toList

/-- The bundle that `ExecuteBundle` accepts; `none` stands for a null or foreign list. -/
def closedBundle (s : RecordingDevice Payload) (bundle : Option Nat) : Option Nat :=
  bundle.filter fun b => (s.device.lists b).any fun list => list.type = .bundle && list.closed

/-- `ExecuteBundle`. A list that is its own bundle gets a copy of its records. -/
def executeBundle (s : RecordingDevice Payload) (l : Nat) (bundle : Option Nat) :
    RecordingDevice Payload :=
  match s.closedBundle bundle with
  | none => s
  | some b =>
    s.setCommands l { s.commands l with records := (s.commands l).records ++
      (s.commands b).records }

/-- The constructor of the list records a compatible initial state. -/
def createCommandList (s : RecordingDevice Payload) (l : Nat) (type : CommandListType)
    (allocator : Option Nat) (initial : Option Payload) : RecordingDevice Payload :=
  let created := { s with device := (s.device.createCommandList l type allocator).1 }
  if (s.device.lists l).isNone ∧ (s.device.createCommandList l type allocator).2 = .ok then
    created.setCommands l { records := initial.toList }
  else created

/-- What `Reset` returns. -/
def resetResult (s : RecordingDevice Payload) (l : Nat) (allocator : Option Nat)
    (compatible : Bool) : HResult :=
  (s.device.resetList l allocator compatible).2

/-- `Reset`: only a successful one drops the records. -/
def resetList (s : RecordingDevice Payload) (l : Nat) (allocator : Option Nat) (compatible : Bool)
    (initial : Option Payload) : RecordingDevice Payload :=
  let reset := { s with device := (s.device.resetList l allocator compatible).1 }
  if (s.device.lists l).isSome ∧ s.resetResult l allocator compatible = .ok then
    reset.setCommands l { s.commands l with records := initial.toList }
  else reset

/-! ## Runs -/

/-- The calls of an application. -/
inductive Call (Payload : Type) where
  | createCommandAllocator (a : Nat) (type : CommandListType)
  | createCommandList (l : Nat) (type : CommandListType) (allocator : Option Nat)
      (initial : Option Payload)
  | destroy (l : Nat)
  | close (l : Nat)
  | resetList (l : Nat) (allocator : Option Nat) (compatible : Bool) (initial : Option Payload)
  | record (l : Nat) (call : RecordingCall Payload)
  | executeBundle (l : Nat) (bundle : Option Nat)
  | executeCommandLists (type : CommandListType) (ls : List (Option Nat))
  | complete (use : SubmittedCommandAllocatorUse)

/-- One call. -/
def step (s : RecordingDevice Payload) : Call Payload → RecordingDevice Payload
  | .createCommandAllocator a type => { s with device := s.device.createCommandAllocator a type }
  | .createCommandList l type allocator initial => s.createCommandList l type allocator initial
  | .destroy l => { s with device := s.device.destroy l }
  | .close l => { s with device := (s.device.close l).1 }
  | .resetList l allocator compatible initial => s.resetList l allocator compatible initial
  | .record l call => if (s.device.lists l).isSome then s.record l call else s
  | .executeBundle l bundle => if (s.device.lists l).isSome then s.executeBundle l bundle else s
  | .executeCommandLists type ls => { s with device := s.device.executeCommandLists type ls }
  | .complete use =>
    if use ∈ s.device.inFlight then { s with device := s.device.complete use } else s

/-- A run of calls. -/
def run (s : RecordingDevice Payload) (calls : List (Call Payload)) : RecordingDevice Payload :=
  calls.foldl step s

/-- No bundle with records is executed on a closed list. -/
def Meets (s : RecordingDevice Payload) : Call Payload → Prop
  | .executeBundle l bundle => s.isClosed l = true → ∀ b, s.closedBundle bundle = some b →
      (s.commands b).records = []
  | _ => True

/-- Every call of the run meets the condition. -/
def MeetsAll (s : RecordingDevice Payload) : List (Call Payload) → Prop
  | [] => True
  | call :: calls => s.Meets call ∧ (s.step call).MeetsAll calls

/-- The call neither resets the list with success nor destroys it. -/
def Leaves (s : RecordingDevice Payload) (l : Nat) : Call Payload → Prop
  | .resetList m allocator compatible _ => m = l → s.resetResult l allocator compatible ≠ .ok
  | .destroy m => m ≠ l
  | _ => True

/-- None of the calls does. -/
def LeavesAll (s : RecordingDevice Payload) (l : Nat) : List (Call Payload) → Prop
  | [] => True
  | call :: calls => s.Leaves l call ∧ (s.step call).LeavesAll l calls

/-- An allocator is held by the list that is open on it, every open list holds one, and a closed
list holds none. -/
structure Held (s : RecordingDevice Payload) : Prop where
  recorder : ∀ a l, s.device.recorder a = some l ↔ s.device.OpenOn a l
  open_iff : ∀ l list, s.device.lists l = some list →
    (list.closed = false ↔ ∃ a, s.device.recorder a = some l)
  one : ∀ a b l, s.device.recorder a = some l → s.device.recorder b = some l → a = b

end RecordingDevice

/-! ## The lists after a call -/

namespace AllocatorDevice

variable {s : AllocatorDevice} {a l m : Nat}

theorem lists_createCommandAllocator (a : Nat) (type : CommandListType) :
    (s.createCommandAllocator a type).lists = s.lists := by
  unfold createCommandAllocator
  split <;> rfl

theorem lists_setList_ne {list : Option GraphicsCommandList} (h : m ≠ l) :
    (s.setList l list).lists m = s.lists m :=
  Function.update_of_ne h _ _

theorem lists_createCommandList_ne (h : m ≠ l) (type : CommandListType) (allocator : Option Nat) :
    (s.createCommandList l type allocator).1.lists m = s.lists m := by
  unfold createCommandList
  split
  · rfl
  · split
    · rfl
    · split
      · rfl
      · split
        · rfl
        · split
          · rfl
          · exact lists_setList_ne h

theorem createCommandList_of_isSome (h : (s.lists l).isSome) (type : CommandListType)
    (allocator : Option Nat) :
    s.createCommandList l type allocator = (s, .ok) := if_pos h

theorem lists_destroy_ne (h : m ≠ l) : (s.destroy l).lists m = s.lists m := by
  unfold destroy
  split
  · rfl
  · rw [lists_setList_ne h]
    split
    · rfl
    · rw [lists_endRecording]

theorem lists_close_ne (h : m ≠ l) : (s.close l).1.lists m = s.lists m := by
  unfold close
  split
  · rfl
  · split
    · rfl
    · dsimp only
      rw [lists_endRecording, lists_setList_ne h]

theorem close_of_closed {list : GraphicsCommandList} (h : s.lists l = some list)
    (hclosed : list.closed = true) :
    (s.close l).1 = s := by
  simp [close, h, hclosed]

theorem lists_resetList_ne (h : m ≠ l) (allocator : Option Nat) (compatible : Bool) :
    (s.resetList l allocator compatible).1.lists m = s.lists m := by
  unfold resetList
  split
  · rfl
  · split
    · rfl
    · split
      · rfl
      · split
        · rfl
        · split
          · rfl
          · dsimp only
            split
            · split
              · rfl
              · exact lists_setList_ne h
            · split
              · rfl
              · rw [lists_setList_ne h, lists_endRecording]
                rfl

/-- A submission changes no list. -/
theorem lists_executeCommandLists (type : CommandListType) (ls : List (Option Nat)) :
    (s.executeCommandLists type ls).lists = s.lists := by
  unfold executeCommandLists
  induction ls generalizing s with
  | nil => rfl
  | cons l ls ih =>
    rw [List.foldl_cons, ih]
    split
    · rfl
    · unfold markSubmittedToQueue
      split
      · rfl
      · split <;> rfl

theorem lists_complete (use : SubmittedCommandAllocatorUse) : (s.complete use).lists = s.lists := by
  unfold complete
  split <;> rfl

/-- An error closes no list. -/
theorem closed_recordError (l m : Nat) :
    ((s.recordError l).lists m).any (·.closed) = (s.lists m).any (·.closed) := by
  unfold recordError
  split
  · rfl
  · next list hlist =>
    by_cases h : m = l
    · subst h
      simp [setList, hlist]
    · rw [lists_setList_ne h]

theorem setAllocator_self {st : CommandAllocator} (h : s.allocators a = some st) :
    s.setAllocator a st = s := by
  unfold setAllocator
  rw [← h, Function.update_eq_self]

/-- The list is not the one that records there. -/
theorem endCommandListRecording_of_refused {st : CommandAllocator}
    (h : (st.endCommandListRecording l).beginCommandListRecording l = none) :
    st.endCommandListRecording l = st := by
  unfold CommandAllocator.endCommandListRecording at h ⊢
  split
  · next hrecords =>
    rw [if_pos hrecords] at h
    simp [CommandAllocator.beginCommandListRecording] at h
  · rfl

/-- **A `Reset` that fails changes nothing.** -/
theorem resetList_of_ne_ok {allocator : Option Nat} {compatible : Bool}
    (h : (s.resetList l allocator compatible).2 ≠ .ok) :
    (s.resetList l allocator compatible).1 = s := by
  revert h
  unfold resetList
  split
  · exact fun _ => rfl
  · split
    · exact fun _ => rfl
    · split
      · exact fun _ => rfl
      · next st hst =>
        split
        · exact fun _ => rfl
        · split
          · exact fun _ => rfl
          · dsimp only
            split
            · split
              · next hrefused =>
                intro _
                rw [endCommandListRecording_of_refused hrefused]
                exact setAllocator_self hst
              · exact fun hne => absurd rfl hne
            · split
              · exact fun _ => rfl
              · exact fun hne => absurd rfl hne

/-- Every list has an allocator. -/
def Owned (s : AllocatorDevice) : Prop :=
  ∀ l list, s.lists l = some list → list.allocator.isSome = true

theorem Owned.congr {s' : AllocatorDevice} (h : s.Owned) (hlists : s'.lists = s.lists) :
    s'.Owned := by
  intro l list hlist
  exact h l list (hlists ▸ hlist)

theorem Owned.setList (h : s.Owned) (l : Nat) {list : Option GraphicsCommandList}
    (hlist : ∀ x, list = some x → x.allocator.isSome = true) : (s.setList l list).Owned := by
  intro m x hx
  by_cases hm : m = l
  · subst hm
    exact hlist x (by simpa [AllocatorDevice.setList] using hx)
  · rw [lists_setList_ne hm] at hx
    exact h m x hx

/-- A new list that is open has its allocator. -/
theorem Owned.createCommandList (h : s.Owned) (l : Nat) (type : CommandListType)
    (allocator : Option Nat) :
    (s.createCommandList l type allocator).1.Owned := by
  unfold AllocatorDevice.createCommandList
  split
  · exact h
  · split
    · exact h
    · split
      · exact h
      · split
        · exact h
        · split
          · exact h
          · refine Owned.setList (h.congr rfl) l fun x hx => ?_
            cases hx
            rfl

theorem Owned.destroy (h : s.Owned) (l : Nat) : (s.destroy l).Owned := by
  unfold AllocatorDevice.destroy
  split
  · exact h
  · refine Owned.setList (h.congr ?_) l nofun
    split
    · rfl
    · rw [lists_endRecording]

theorem Owned.close (h : s.Owned) (l : Nat) : (s.close l).1.Owned := by
  unfold AllocatorDevice.close
  split
  · exact h
  · next list hlist =>
    split
    · exact h
    · have hset : (s.setList l (some { list with closed := true })).Owned := by
        refine h.setList l fun x hx => ?_
        cases hx
        exact h l list hlist
      exact hset.congr lists_endRecording

/-- A list that is reset has its allocator. -/
theorem Owned.resetList (h : s.Owned) (l : Nat) (allocator : Option Nat) (compatible : Bool) :
    (s.resetList l allocator compatible).1.Owned := by
  unfold AllocatorDevice.resetList
  split
  · exact h
  · split
    · exact h
    · split
      · exact h
      · split
        · exact h
        · split
          · exact h
          · dsimp only
            split
            · split
              · exact h.congr rfl
              · refine Owned.setList (h.congr rfl) l fun x hx => ?_
                cases hx
                rfl
            · split
              · exact h
              · next st' _ =>
                have hset : ∀ a, (s.setAllocator a st').Owned := fun _ => h.congr rfl
                refine Owned.setList ((hset _).congr lists_endRecording) l fun x hx => ?_
                cases hx
                rfl

theorem Owned.recordError (h : s.Owned) (l : Nat) : (s.recordError l).Owned := by
  unfold AllocatorDevice.recordError
  split
  · exact h
  · next list hlist =>
    refine h.setList l fun x hx => ?_
    cases hx
    exact h l list hlist

end AllocatorDevice

/-! ## One call -/

namespace RecordingDevice

variable {Payload : Type} {s : RecordingDevice Payload} {l m : Nat} {call : Call Payload}

theorem commands_setCommands_ne {commands : RecordedCommands Payload} (h : m ≠ l) :
    (s.setCommands l commands).commands m = s.commands m :=
  Function.update_of_ne h _ _

/-- Only records count. -/
theorem records_setCommands {commands : RecordedCommands Payload}
    (h : commands.records = (s.commands l).records) :
    ((s.setCommands l commands).commands m).records = (s.commands m).records := by
  by_cases hm : m = l
  · subst hm
    simpa [setCommands] using h
  · rw [commands_setCommands_ne hm]

/-- Recording leaves the device alone. -/
theorem device_addRecords (payloads : List Payload) :
    (s.addRecords l payloads).device = s.device := by
  unfold addRecords
  split <;> rfl

theorem commands_addRecords_ne (h : m ≠ l) (payloads : List Payload) :
    (s.addRecords l payloads).commands m = s.commands m := by
  unfold addRecords
  split
  · rfl
  · exact commands_setCommands_ne h

/-- `AddRecord` respects the flag. -/
theorem addRecords_of_closed (h : s.isClosed l = true) (payloads : List Payload) :
    s.addRecords l payloads = s := if_pos h

/-- What a recording call does to the device: the flag of an invalid barrier. -/
theorem device_record (call : RecordingCall Payload) :
    (s.record l call).device = s.device ∨ (s.record l call).device = s.device.recordError l := by
  cases call with
  | setPipelineState compatible payload =>
    unfold record
    dsimp only
    split
    · exact Or.inl (device_addRecords _)
    · exact Or.inl rfl
  | resourceBarrier valid payload =>
    unfold record
    dsimp only
    rw [device_addRecords]
    split
    · exact Or.inl rfl
    · exact Or.inr rfl
  | beginRenderPass suspended payloads resolves =>
    unfold record
    dsimp only
    split
    · exact Or.inl rfl
    · exact Or.inl (device_addRecords _)
  | endRenderPass => exact Or.inl (device_addRecords _)
  | other payload => exact Or.inl (device_addRecords _)

/-- Recording changes its own list only. -/
theorem commands_record_ne (h : m ≠ l) (call : RecordingCall Payload) :
    (s.record l call).commands m = s.commands m := by
  cases call with
  | setPipelineState compatible payload =>
    unfold record
    dsimp only
    split
    · exact commands_addRecords_ne h _
    · rfl
  | resourceBarrier valid payload =>
    unfold record
    dsimp only
    rw [commands_addRecords_ne h]
    split <;> rfl
  | beginRenderPass suspended payloads resolves =>
    unfold record
    dsimp only
    split
    · exact commands_setCommands_ne h
    · rw [commands_setCommands_ne h, commands_addRecords_ne h, commands_setCommands_ne h]
  | endRenderPass =>
    unfold record
    dsimp only
    rw [commands_setCommands_ne h, commands_addRecords_ne h]
  | other payload => exact commands_addRecords_ne h _

/-- **A recording call leaves the records of a closed list.** -/
theorem records_record_of_closed (h : s.isClosed l = true) (call : RecordingCall Payload) :
    ((s.record l call).commands l).records = (s.commands l).records := by
  cases call with
  | setPipelineState compatible payload =>
    unfold record
    dsimp only
    split
    · rw [addRecords_of_closed h]
    · rfl
  | resourceBarrier valid payload =>
    unfold record
    dsimp only
    split
    · rw [addRecords_of_closed h]
    · have hclosed : ({ s with device := s.device.recordError l } : RecordingDevice
          Payload).isClosed l = true :=
        (AllocatorDevice.closed_recordError l l).trans h
      rw [addRecords_of_closed hclosed]
  | beginRenderPass suspended payloads resolves =>
    unfold record
    dsimp only
    split
    · exact records_setCommands rfl
    · rw [addRecords_of_closed (show (s.setCommands l _).isClosed l = true from h)]
      refine (records_setCommands ?_).trans (records_setCommands ?_)
      · rfl
      · rfl
  | endRenderPass =>
    unfold record
    dsimp only
    rw [addRecords_of_closed h]
    exact records_setCommands rfl
  | other payload =>
    unfold record
    dsimp only
    rw [addRecords_of_closed h]

theorem commands_executeBundle_ne (h : m ≠ l) (bundle : Option Nat) :
    (s.executeBundle l bundle).commands m = s.commands m := by
  unfold executeBundle
  split
  · rfl
  · exact commands_setCommands_ne h

theorem device_executeBundle (bundle : Option Nat) :
    (s.executeBundle l bundle).device = s.device := by
  unfold executeBundle
  split <;> rfl

theorem isSome_of_isClosed (h : s.isClosed l = true) : (s.device.lists l).isSome = true := by
  unfold isClosed at h
  cases hlist : s.device.lists l with
  | none => simp [hlist] at h
  | some list => rfl

/-- **One call and the records of a closed list.** -/
theorem records_step (hclosed : s.isClosed l = true) (hmeets : s.Meets call)
    (hleaves : s.Leaves l call) :
    ((s.step call).commands l).records = (s.commands l).records := by
  have hsome := isSome_of_isClosed hclosed
  cases call with
  | createCommandAllocator a type => rfl
  | createCommandList m type allocator initial =>
    unfold step createCommandList
    dsimp only
    split
    · next hcreated =>
      have hm : l ≠ m := by
        rintro rfl
        simp [Option.isNone_iff_eq_none.mp hcreated.1] at hsome
      rw [commands_setCommands_ne hm]
    · rfl
  | destroy m => rfl
  | close m => rfl
  | resetList m allocator compatible initial =>
    unfold step resetList
    dsimp only
    split
    · next hreset =>
      have hm : l ≠ m := by
        rintro rfl
        exact hleaves rfl hreset.2
      rw [commands_setCommands_ne hm]
    · rfl
  | record m call =>
    unfold step
    dsimp only
    split
    · by_cases hm : l = m
      · subst hm
        exact records_record_of_closed hclosed call
      · rw [commands_record_ne hm]
    · rfl
  | executeBundle m bundle =>
    unfold step
    dsimp only
    split
    · by_cases hm : l = m
      · subst hm
        unfold executeBundle
        split
        · rfl
        · next b hb =>
          refine records_setCommands ?_
          dsimp only
          rw [hmeets hclosed b hb, List.append_nil]
      · rw [commands_executeBundle_ne hm]
    · rfl
  | executeCommandLists type ls => rfl
  | complete use =>
    unfold step
    dsimp only
    split <;> rfl

/-- **One call and the flag of a closed list.** -/
theorem isClosed_step (hclosed : s.isClosed l = true) (hleaves : s.Leaves l call) :
    (s.step call).isClosed l = true := by
  have hsome := isSome_of_isClosed hclosed
  have hkeep : ∀ t : RecordingDevice Payload, t.device.lists l = s.device.lists l →
      t.isClosed l = true :=
    fun t ht => by
      unfold isClosed
      rw [ht]
      exact hclosed
  cases call with
  | createCommandAllocator a type =>
    exact hkeep _ (congrFun (AllocatorDevice.lists_createCommandAllocator a type) l)
  | createCommandList m type allocator initial =>
    refine hkeep _ ?_
    have hlists : (s.device.createCommandList m type allocator).1.lists l = s.device.lists l := by
      by_cases hm : l = m
      · subst hm
        rw [AllocatorDevice.createCommandList_of_isSome hsome]
      · exact AllocatorDevice.lists_createCommandList_ne hm type allocator
    unfold step createCommandList
    dsimp only
    split
    · exact hlists
    · exact hlists
  | destroy m => exact hkeep _ (AllocatorDevice.lists_destroy_ne fun h => hleaves h.symm)
  | close m =>
    refine hkeep _ ?_
    by_cases hm : l = m
    · subst hm
      obtain ⟨list, hlist⟩ := Option.isSome_iff_exists.mp hsome
      have hflag : list.closed = true := by simpa [isClosed, hlist] using hclosed
      unfold step
      dsimp only
      rw [AllocatorDevice.close_of_closed hlist hflag]
    · exact AllocatorDevice.lists_close_ne hm
  | resetList m allocator compatible initial =>
    refine hkeep _ ?_
    have hlists : (s.device.resetList m allocator compatible).1.lists l = s.device.lists l := by
      by_cases hm : l = m
      · subst hm
        rw [AllocatorDevice.resetList_of_ne_ok (hleaves rfl)]
      · exact AllocatorDevice.lists_resetList_ne hm allocator compatible
    unfold step resetList
    dsimp only
    split
    · exact hlists
    · exact hlists
  | record m call =>
    unfold step
    dsimp only
    split
    · rcases device_record (s := s) (l := m) call with hdevice | hdevice
      · exact hkeep _ (by rw [hdevice])
      · unfold isClosed
        rw [hdevice, AllocatorDevice.closed_recordError]
        exact hclosed
    · exact hclosed
  | executeBundle m bundle =>
    unfold step
    dsimp only
    split
    · exact hkeep _ (by rw [device_executeBundle])
    · exact hclosed
  | executeCommandLists type ls =>
    exact hkeep _ (congrFun (AllocatorDevice.lists_executeCommandLists type ls) l)
  | complete use =>
    unfold step
    dsimp only
    split
    · exact hkeep _ (congrFun (AllocatorDevice.lists_complete use) l)
    · exact hclosed

/-- The devices of a run know who records, and every list has an allocator. -/
structure Inv (s : RecordingDevice Payload) : Prop where
  recording : s.device.Recording
  owned : s.device.Owned

/-- A new device has no lists. -/
theorem Inv.init : Inv ({} : RecordingDevice Payload) where
  recording a l := by
    refine iff_of_false nofun ?_
    rintro ⟨list, hlist, -⟩
    cases hlist
  owned l list hlist := by cases hlist

/-- **One call and the allocators.** -/
theorem Inv.step (h : Inv s) (call : Call Payload) : Inv (s.step call) := by
  cases call with
  | createCommandAllocator a type =>
    exact ⟨h.recording.createCommandAllocator a type,
      h.owned.congr (AllocatorDevice.lists_createCommandAllocator a type)⟩
  | createCommandList m type allocator initial =>
    have hcreated : Inv { s with device := (s.device.createCommandList m type allocator).1 } :=
      ⟨h.recording.createCommandList m type allocator, h.owned.createCommandList m type allocator⟩
    unfold RecordingDevice.step createCommandList
    dsimp only
    split
    · exact ⟨hcreated.recording, hcreated.owned⟩
    · exact hcreated
  | destroy m => exact ⟨h.recording.destroy m, h.owned.destroy m⟩
  | close m => exact ⟨h.recording.close m, h.owned.close m⟩
  | resetList m allocator compatible initial =>
    have hreset : Inv { s with device := (s.device.resetList m allocator compatible).1 } :=
      ⟨h.recording.resetList m allocator compatible, h.owned.resetList m allocator compatible⟩
    unfold RecordingDevice.step resetList
    dsimp only
    split
    · exact ⟨hreset.recording, hreset.owned⟩
    · exact hreset
  | record m call =>
    unfold RecordingDevice.step
    dsimp only
    split
    · rcases device_record (s := s) (l := m) call with hdevice | hdevice
      · exact ⟨hdevice ▸ h.recording, hdevice ▸ h.owned⟩
      · exact ⟨hdevice ▸ h.recording.recordError m, hdevice ▸ h.owned.recordError m⟩
    · exact h
  | executeBundle m bundle =>
    unfold RecordingDevice.step
    dsimp only
    split
    · have hdevice := device_executeBundle (s := s) (l := m) bundle
      exact ⟨hdevice ▸ h.recording, hdevice ▸ h.owned⟩
    · exact h
  | executeCommandLists type ls =>
    exact ⟨h.recording.executeCommandLists type ls,
      h.owned.congr (AllocatorDevice.lists_executeCommandLists type ls)⟩
  | complete use =>
    unfold RecordingDevice.step
    dsimp only
    split
    · exact ⟨h.recording.complete use, h.owned.congr (AllocatorDevice.lists_complete use)⟩
    · exact h

theorem Inv.held (h : Inv s) : s.Held where
  recorder := h.recording
  open_iff l list hlist := by
    constructor
    · intro hopen
      obtain ⟨a, ha⟩ := Option.isSome_iff_exists.mp (h.owned l list hlist)
      exact ⟨a, (h.recording a l).mpr ⟨list, hlist, hopen, ha⟩⟩
    · rintro ⟨a, ha⟩
      obtain ⟨found, hfound, hopen, -⟩ := (h.recording a l).mp ha
      cases hlist.symm.trans hfound
      exact hopen
  one a b l ha hb := by
    obtain ⟨list, hlist, -, hla⟩ := (h.recording a l).mp ha
    obtain ⟨list', hlist', -, hlb⟩ := (h.recording b l).mp hb
    cases hlist.symm.trans hlist'
    exact Option.some.inj (hla.symm.trans hlb)

/-! ## Runs -/

/-- The invariant holds after every run. -/
theorem Inv.run (h : Inv s) (calls : List (Call Payload)) : Inv (s.run calls) := by
  induction calls generalizing s with
  | nil => exact h
  | cons call calls ih => exact ih (h.step call)

/-- **A run and a closed list**: it stays closed and keeps its records. -/
theorem records_run {later : List (Call Payload)} (hclosed : s.isClosed l = true)
    (hmeets : s.MeetsAll later) (hleaves : s.LeavesAll l later) :
    (s.run later).isClosed l = true ∧ ((s.run later).commands l).records =
    (s.commands l).records := by
  induction later generalizing s with
  | nil => exact ⟨hclosed, rfl⟩
  | cons call later ih =>
    obtain ⟨hstill, hrecords⟩ := ih (isClosed_step hclosed hleaves.1) hmeets.2 hleaves.2
    exact ⟨hstill, hrecords.trans (records_step hclosed hmeets.1 hleaves.1)⟩

/-- A `Reset` that fails leaves everything. -/
theorem step_resetList_of_ne_ok {allocator : Option Nat} {compatible : Bool}
    (initial : Option Payload) (h : s.resetResult l allocator compatible ≠ .ok) :
    s.step (.resetList l allocator compatible initial) = s := by
  unfold step resetList
  dsimp only
  rw [if_neg fun hreset => h hreset.2, AllocatorDevice.resetList_of_ne_ok h]

/-- **Closed lists do not change** in a run in which no bundle with records is executed on a closed
list: what they have recorded stays up to a `Reset` that succeeds, the allocators are held by the
open lists, and a `Reset` that fails changes nothing. -/
theorem closed_list_unchanged (calls : List (Call Payload)) (hmeets : MeetsAll {} calls) :
    (∀ before later l, calls = before ++ later → (run {} before).isClosed l = true →
      (run {} before).LeavesAll l later →
      (run {} calls).isClosed l = true ∧
        ((run {} calls).commands l).records = ((run {} before).commands l).records) ∧
    (run {} calls).Held ∧
    ∀ l allocator compatible initial, (run {} calls).resetResult l allocator compatible ≠ .ok →
      (run {} calls).step (.resetList l allocator compatible initial) = run {} calls := by
  refine ⟨fun before later l hsplit hclosed hleaves => ?_, (Inv.init.run calls).held,
    fun l allocator compatible initial hne => step_resetList_of_ne_ok initial hne⟩
  have hlater : ∀ s : RecordingDevice Payload, s.MeetsAll (before ++ later) →
      (s.run before).MeetsAll later := by
    intro s hall
    clear hsplit hclosed hleaves
    induction before generalizing s with
    | nil => exact hall
    | cons call before ih => exact ih (s.step call) hall.2
  have hrun : run ({} : RecordingDevice Payload) calls = (run {} before).run later := by
    rw [hsplit, run, List.foldl_append]
    rfl
  rw [hrun]
  exact records_run hclosed (hlater {} (hsplit ▸ hmeets)) hleaves

/-- A list of each of two types, a record in the bundle, and both lists closed. -/
def twoClosedLists : List (Call Nat) :=
  [.createCommandAllocator 0 .direct, .createCommandAllocator 1 .bundle,
    .createCommandList 0 .direct (some 0) none, .createCommandList 1 .bundle (some 1) none,
    .record 1 (.other (some 7)), .close 1, .close 0]

/-- Recording goes nowhere on a closed list, and resets of other lists leave it. -/
theorem closed_list_unchanged_two :
    ((run {} (twoClosedLists ++ [.record 1 (.other (some 8)),
      .resetList 0 (some 0) true none])).commands
      1).records = [7] :=
  ((closed_list_unchanged (twoClosedLists ++ [.record 1 (.other (some 8)),
      .resetList 0 (some 0) true none])
      (by simp [twoClosedLists, MeetsAll, Meets])).1 twoClosedLists
    [.record 1 (.other (some 8)), .resetList 0 (some 0) true none] 1 rfl (by decide)
    ⟨trivial, by simp [Leaves], trivial⟩).2

/-- The closed list `0` has a record after it has executed the bundle `1`. -/
theorem bundle_in_closed_list :
    (run {} twoClosedLists).isClosed 0 = true ∧ ((run {} twoClosedLists).commands 0).records = [] ∧
      LeavesAll (run {} twoClosedLists) 0 [.executeBundle 0 (some 1)] ∧
      ((run {} (twoClosedLists ++ [.executeBundle 0 (some 1)])).commands 0).records = [7] :=
  ⟨by decide, by decide, ⟨trivial, trivial⟩, by decide⟩

end RecordingDevice

end Dxmt
