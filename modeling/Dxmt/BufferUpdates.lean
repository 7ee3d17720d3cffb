import Dxmt.D3D11Context
import Mathlib.Data.List.Basic

/-!
# Queued buffer updates: `FlushPendingBufferUpdatesFor` and its callers

An update of a buffer is queued, and becomes a command when some later call needs the buffer. What
the encoder has done after all is the commands, and then the updates in the queue (`accesses`). Two
of them that are about one buffer, of which one writes it, are in the order of their calls
(`Ordered`), and the updates that the commands have made together with those in the queue are all
that were queued.

Four calls do not look for an update of a buffer that they use: a draw or a dispatch where only
constant buffers have updates (`constant_buffer_stale`), `CopyStructureCount`, `ClearView` of an
unordered access view, and a `Map` that discards in a deferred context.

Results: `InCall.exec` is the invariant, `updates_in_order` the statement on runs without the four.

Source: `d3d11_context_impl.cpp:1140-1245, 1589-1905, 5048-5208, 5571-5937`,
`d3d11_context_def.cpp:144-290`.
-/

namespace Dxmt

/-- What a command or a queued update does with buffers, and for which calls. -/
structure BufferAccess where
  calls : List Nat
  reads : List Nat
  writes : List Nat

namespace BufferAccess

/-- Both are about one buffer, and one of them writes it. -/
def conflicts (x y : BufferAccess) : Bool :=
  x.writes.any (fun buffer => buffer ∈ y.reads ++ y.writes) ||
    x.reads.any fun buffer => buffer ∈ y.writes

/-- `x` may come before `y`. -/
def Ordered (x y : BufferAccess) : Prop :=
  x.conflicts y = true → ∀ m ∈ x.calls, ∀ n ∈ y.calls, m ≤ n

instance : DecidableRel Ordered := fun x y =>
  inferInstanceAs (Decidable (x.conflicts y = true → ∀ m ∈ x.calls, ∀ n ∈ y.calls, m ≤ n))

end BufferAccess

/-- What the command reads and writes. -/
def Command.access (command : Command) : BufferAccess :=
  ⟨command.calls, command.reads, command.writes⟩

/-- What the update writes. -/
def PendingBufferUpdate.access (update : PendingBufferUpdate) : BufferAccess :=
  ⟨[update.call], [], [update.dst]⟩

namespace D3D11Context

/-! ## The statement -/

/-- The commands, and the updates in the queue after them. -/
def accesses (c : D3D11Context) : List BufferAccess :=
  c.commands.map Command.access ++ c.pendingBufferUpdates.map PendingBufferUpdate.access

/-- The updates of the buffer that the commands have made. -/
def applied (c : D3D11Context) (updates : List PendingBufferUpdate) (buffer : Nat) : List Nat :=
  c.commands.flatMap fun command =>
    if buffer ∈ command.writes then command.calls.filter fun n => ⟨buffer, n⟩ ∈ updates else []

/-- What is used of a buffer is in the order of the calls, and no update is lost or made twice. -/
structure ProgramOrder (c : D3D11Context) (updates : List PendingBufferUpdate) : Prop where
  ordered : c.accesses.Pairwise BufferAccess.Ordered
  complete : ∀ buffer, c.applied updates buffer ++
    (c.pendingFor buffer).map PendingBufferUpdate.call =
      (updates.filter fun update => update.dst = buffer).map PendingBufferUpdate.call

/-- The condition on a call. -/
def UpdatesMeet (c : D3D11Context) : Call → Prop
  | .draw d => ∀ kind, c.drawn d = some kind → ∀ stage ∈ kind.stages,
    ∀ buffer ∈ c.shaderConstantBuffers stage, c.hasPendingBufferUpdateFor buffer = true →
      c.drawBindingBuffers.any c.hasPendingBufferUpdateFor = true ∨ d.indirect = some (some buffer)
  | .dispatch d => c.dispatched d = true →
    ∀ buffer ∈ c.shaderConstantBuffers .compute, c.hasPendingBufferUpdateFor buffer = true →
      c.computeBindingBuffers.any c.hasPendingBufferUpdateFor = true ∨
        d.indirect = some (some buffer)
  | .copyStructureCount dst => c.hasPendingBufferUpdateFor dst = false
  | .clearViewRects buffer => ∀ b, buffer = some b → c.hasPendingBufferUpdateFor b = false
  -- the buffers are those of staging textures, that no update is queued for
  | .copyTexture dst src _ => ∀ b, dst = some b ∨ src = some b →
    c.hasPendingBufferUpdateFor b = false
  | .map buffer (.discardBuffer _ _ _) => c.deferred = true → ∀ b, buffer = some b →
    c.hasPendingBufferUpdateFor b = false
  | _ => True

/-- The updates that have been queued, one for every call of `UpdateSubresource1`. -/
def queued (c : D3D11Context) : Call → List PendingBufferUpdate
  | .updateSubresource dst => [⟨dst, c.call⟩]
  | _ => []

/-- A run whose calls meet the condition, with the updates that it queues. -/
inductive UpdateRun : D3D11Context → List PendingBufferUpdate → Prop where
  | init (deferred : Bool) : UpdateRun (init deferred) []
  | step {c : D3D11Context} {updates : List PendingBufferUpdate} (run : UpdateRun c updates)
    (call : Call) (meets : c.UpdatesMeet call) :
    UpdateRun (c.step call) (updates ++ c.queued call)

/-! ## The invariant -/

variable {c c' c'' : D3D11Context} {updates : List PendingBufferUpdate} {n : Nat}

/-- The invariant while the call `n` runs. -/
structure InCall (updates : List PendingBufferUpdate) (n : Nat) (c : D3D11Context) : Prop
    extends ProgramOrder c updates where
  call : c.call = n
  bounded : ∀ access ∈ c.accesses, ∀ m ∈ access.calls, m ≤ n
  fresh : ∀ update ∈ updates, update.call < n

/-- A step that emits commands without buffers. -/
structure Silent (c c' : D3D11Context) : Prop where
  commands : ∃ commands, c'.commands = c.commands ++ commands ∧
    ∀ command ∈ commands, command.reads = [] ∧ command.writes = [] ∧ command.calls = [c.call]
  pending : c'.pendingBufferUpdates = c.pendingBufferUpdates
  call : c'.call = c.call

theorem Silent.refl (c : D3D11Context) : Silent c c :=
  ⟨⟨[], (List.append_nil _).symm, fun _ h => nomatch h⟩, rfl, rfl⟩

theorem Silent.of_eq (hcommands : c'.commands = c.commands)
    (hpending : c'.pendingBufferUpdates = c.pendingBufferUpdates) (hcall : c'.call = c.call) :
    Silent c c' :=
  ⟨⟨[], by rw [hcommands, List.append_nil], fun _ h => nomatch h⟩, hpending, hcall⟩

theorem Silent.trans (h : Silent c c') (h' : Silent c' c'') : Silent c c'' := by
  obtain ⟨commands, hcommands, hsilent⟩ := h.commands
  obtain ⟨commands', hcommands', hsilent'⟩ := h'.commands
  refine ⟨⟨commands ++ commands', ?_, fun command hmem => ?_⟩, h'.pending.trans h.pending,
    h'.call.trans h.call⟩
  · rw [hcommands', hcommands, List.append_assoc]
  · rcases List.mem_append.mp hmem with hmem | hmem
    · exact hsilent command hmem
    · rw [← h.call]
      exact hsilent' command hmem

theorem silent_emitST (c : D3D11Context) (op : EncoderOp) : Silent c (c.emitST op) :=
  ⟨⟨[⟨op, c.cmdbufState, [c.call], [], []⟩], rfl, fun command hmem => by
    cases List.mem_singleton.mp hmem
    exact ⟨rfl, rfl, rfl⟩⟩, rfl, rfl⟩

theorem silent_emitOP (c : D3D11Context) (op : EncoderOp) : Silent c (c.emitOP op [] []) :=
  ⟨⟨[⟨op, c.cmdbufState, [c.call], [], []⟩], rfl, fun command hmem => by
    cases List.mem_singleton.mp hmem
    exact ⟨rfl, rfl, rfl⟩⟩, rfl, rfl⟩

/-- Without a common buffer there is no conflict. -/
theorem BufferAccess.ordered_of_disjoint {x y : BufferAccess}
    (h : ∀ buffer ∈ x.reads ++ x.writes, buffer ∉ y.reads ++ y.writes) :
    BufferAccess.Ordered x y := by
  intro hconflicts
  exfalso
  rcases Bool.or_eq_true_iff.mp hconflicts with hany | hany
  · obtain ⟨buffer, hx, hy⟩ := List.any_eq_true.mp hany
    exact h buffer (List.mem_append_right _ hx) (of_decide_eq_true hy)
  · obtain ⟨buffer, hx, hy⟩ := List.any_eq_true.mp hany
    exact h buffer (List.mem_append_left _ hx)
      (List.mem_append_right _ (of_decide_eq_true hy))

theorem notMem_of_not_pending {buffer : Nat} (h : c.hasPendingBufferUpdateFor buffer = false)
    {update : PendingBufferUpdate} (hupdate : update ∈ c.pendingBufferUpdates) :
    update.dst ≠ buffer := by
  intro hdst
  have hpending := (c.hasPendingBufferUpdateFor_iff buffer).mpr ⟨update, hupdate, hdst⟩
  rw [h] at hpending
  cases hpending

/-- A command of the call, that uses buffers without an update in the queue. -/
theorem InCall.emit (h : InCall updates n c) {command : Command}
    (hcommands : c'.commands = c.commands ++ [command])
    (hpending : c'.pendingBufferUpdates = c.pendingBufferUpdates) (hcall : c'.call = c.call)
    (hcalls : command.calls = [c.call])
    (hnone : ∀ buffer ∈ command.reads ++ command.writes,
      c.hasPendingBufferUpdateFor buffer = false) : InCall updates n c' := by
  have haccesses : c'.accesses = c.commands.map Command.access ++
      (command.access :: c.pendingBufferUpdates.map PendingBufferUpdate.access) := by
    rw [accesses, hcommands, hpending, List.map_append, List.append_assoc]
    rfl
  have hcallsn : command.access.calls = [n] := hcalls.trans (by rw [h.call])
  obtain ⟨hold, hqueue, hacross⟩ := List.pairwise_append.mp h.ordered
  refine ⟨⟨?_, fun buffer => ?_⟩, hcall.trans h.call, ?_, h.fresh⟩
  · rw [haccesses, List.pairwise_append, List.pairwise_cons]
    refine ⟨hold, ⟨fun access hmem => ?_, hqueue⟩, fun access hmem access' hmem' => ?_⟩
    · obtain ⟨update, hupdate, rfl⟩ := List.mem_map.mp hmem
      refine BufferAccess.ordered_of_disjoint fun buffer hbuffer hdst => ?_
      exact notMem_of_not_pending (hnone buffer hbuffer) hupdate (List.mem_singleton.mp hdst).symm
    · rcases List.mem_cons.mp hmem' with rfl | hmem'
      · intro _ m hm k hk
        rw [hcallsn] at hk
        cases List.mem_singleton.mp hk
        exact h.bounded access (List.mem_append_left _ hmem) m hm
      · exact hacross access hmem access' hmem'
  · have happlied : c'.applied updates buffer = c.applied updates buffer := by
      unfold applied
      rw [hcommands, List.flatMap_append, List.flatMap_singleton, hcalls]
      have hnot : (⟨buffer, c.call⟩ : PendingBufferUpdate) ∉ updates := fun hmem =>
        absurd (h.fresh _ hmem) (by rw [h.call]; exact Nat.lt_irrefl n)
      simp [hnot]
    have hpendingFor : c'.pendingFor buffer = c.pendingFor buffer := by
      unfold pendingFor
      rw [hpending]
    rw [happlied, hpendingFor]
    exact h.complete buffer
  · rw [haccesses]
    intro access hmem m hm
    rcases List.mem_append.mp hmem with hmem | hmem
    · exact h.bounded access (List.mem_append_left _ hmem) m hm
    · rcases List.mem_cons.mp hmem with rfl | hmem
      · rw [hcallsn] at hm
        exact Nat.le_of_eq (List.mem_singleton.mp hm)
      · exact h.bounded access (List.mem_append_right _ hmem) m hm

theorem InCall.congr (h : InCall updates n c) (hcommands : c'.commands = c.commands)
    (hpending : c'.pendingBufferUpdates = c.pendingBufferUpdates) (hcall : c'.call = c.call) :
    InCall updates n c' := by
  obtain ⟨⟨hordered, hcomplete⟩, hc, hbounded, hfresh⟩ := h
  refine ⟨⟨?_, ?_⟩, hcall.trans hc, ?_, hfresh⟩
  · unfold accesses at hordered ⊢
    rwa [hcommands, hpending]
  · unfold applied pendingFor at hcomplete ⊢
    rwa [hcommands, hpending]
  · unfold accesses at hbounded ⊢
    rwa [hcommands, hpending]

theorem InCall.silent (h : InCall updates n c) (hs : Silent c c') : InCall updates n c' := by
  obtain ⟨⟨commands, hcommands, hsilent⟩, hpending, hcall⟩ := hs
  induction commands generalizing c with
  | nil => exact h.congr (hcommands.trans (List.append_nil _)) hpending hcall
  | cons command commands ih =>
    obtain ⟨hreads, hwrites, hcalls⟩ := hsilent command List.mem_cons_self
    have hemit : InCall updates n { c with commands := c.commands ++ [command] } := by
      refine h.emit rfl rfl rfl hcalls fun buffer hmem => ?_
      rw [hreads, hwrites] at hmem
      cases hmem
    refine ih hemit hpending hcall ?_ fun command hmem =>
      hsilent command (List.mem_cons_of_mem _ hmem)
    rw [hcommands, List.append_assoc]
    rfl

/-- The updates of a buffer that are in the queue have been queued. -/
theorem InCall.mem_updates (h : InCall updates n c) {update : PendingBufferUpdate}
    (hupdate : update ∈ c.pendingBufferUpdates) : update ∈ updates := by
  have hmem : update.call ∈ c.applied updates update.dst ++
      (c.pendingFor update.dst).map PendingBufferUpdate.call :=
    List.mem_append_right _ (List.mem_map_of_mem
      (List.mem_filter.mpr ⟨hupdate, decide_eq_true rfl⟩))
  rw [h.complete] at hmem
  obtain ⟨queued, hqueued, hcall⟩ := List.mem_map.mp hmem
  obtain ⟨hqueued, hdst⟩ := List.mem_filter.mp hqueued
  have heq : queued = update := by
    cases queued
    cases update
    simp only [decide_eq_true_eq] at hcall hdst
    rw [hcall, hdst]
  exact heq ▸ hqueued

theorem exists_of_mem_pendingFor {buffer m : Nat}
    (h : m ∈ (c.pendingFor buffer).map PendingBufferUpdate.call) :
    ∃ update ∈ c.pendingBufferUpdates, update.dst = buffer ∧ update.call = m := by
  obtain ⟨update, hupdate, hcall⟩ := List.mem_map.mp h
  obtain ⟨hmem, hdst⟩ := List.mem_filter.mp hupdate
  exact ⟨update, hmem, of_decide_eq_true hdst, hcall⟩

/-- The queue of a buffer, once the updates of one buffer are taken out. -/
theorem filter_pending_ne (updates : List PendingBufferUpdate) (buffer b : Nat) :
    ((updates.filter fun update => update.dst ≠ buffer).filter fun update => update.dst = b) =
      if b = buffer then [] else updates.filter fun update => update.dst = b := by
  rw [List.filter_filter]
  by_cases hb : b = buffer
  · rw [if_pos hb, hb]
    exact List.filter_eq_nil_iff.mpr fun update _ => by simp
  · rw [if_neg hb]
    refine List.filter_congr fun update _ => ?_
    by_cases hdst : update.dst = b
    · simp [hdst, hb]
    · simp [hdst]

/-- A batch applies the queue of its buffer. -/
theorem InCall.applied_batch (h : InCall updates n c) (op : EncoderOp) (buffer b : Nat)
    (hcommands : c'.commands = c.commands ++ [⟨op, c.cmdbufState,
      (c.pendingFor buffer).map PendingBufferUpdate.call, [], [buffer]⟩]) :
    c'.applied updates b = c.applied updates b ++
      if b = buffer then (c.pendingFor buffer).map PendingBufferUpdate.call else [] := by
  unfold applied
  rw [hcommands, List.flatMap_append, List.flatMap_singleton]
  refine congrArg (c.applied updates b ++ ·) ?_
  by_cases hb : b = buffer
  · rw [if_pos hb, hb, if_pos List.mem_cons_self]
    refine List.filter_eq_self.mpr fun m hm => decide_eq_true ?_
    obtain ⟨update, hupdate, hdst, hcall⟩ := exists_of_mem_pendingFor hm
    rw [← hdst, ← hcall]
    exact h.mem_updates hupdate
  · rw [if_neg hb, if_neg (fun hmem => hb (List.mem_singleton.mp hmem))]

/-- A batch comes where its updates are in the queue. -/
theorem ProgramOrder.ordered_batch (h : c.ProgramOrder updates) (buffer : Nat) :
    (c.commands.map Command.access ++
      (⟨(c.pendingFor buffer).map PendingBufferUpdate.call, [], [buffer]⟩ : BufferAccess) ::
        (c.pendingBufferUpdates.filter fun update => update.dst ≠ buffer).map
          PendingBufferUpdate.access).Pairwise BufferAccess.Ordered := by
  obtain ⟨hold, hqueue, hacross⟩ := List.pairwise_append.mp h.ordered
  refine List.pairwise_append.mpr ⟨hold, List.pairwise_cons.mpr ⟨fun access hmem => ?_, ?_⟩,
    fun access hmem access' hmem' => ?_⟩
  · -- the rest of the queue is about other buffers
    obtain ⟨update, hupdate, rfl⟩ := List.mem_map.mp hmem
    refine BufferAccess.ordered_of_disjoint fun b hb hdst => ?_
    cases List.mem_singleton.mp hb
    exact of_decide_eq_true (List.mem_filter.mp hupdate).2 (List.mem_singleton.mp hdst).symm
  · exact hqueue.sublist (List.filter_sublist.map _)
  · rcases List.mem_cons.mp hmem' with rfl | hmem'
    · -- a conflict with the batch is one with each of its updates
      intro hconflicts m hm k hk
      obtain ⟨update, hupdate, hdst, rfl⟩ := exists_of_mem_pendingFor hk
      refine hacross access hmem update.access (List.mem_map_of_mem hupdate) ?_ m hm _
        List.mem_cons_self
      unfold PendingBufferUpdate.access
      rw [hdst]
      exact hconflicts
    · exact hacross access hmem access' ((List.filter_sublist.map _).subset hmem')

/-- What a batch takes out of the queue it does. -/
theorem InCall.emitBatch (h : InCall updates n c) (op : EncoderOp) (buffer : Nat) :
    InCall updates n (c.emitBatch op buffer) := by
  unfold D3D11Context.emitBatch
  split
  · refine ⟨⟨?_, fun b => ?_⟩, h.call, ?_, h.fresh⟩
    · unfold accesses
      rw [List.map_append, List.append_assoc]
      exact h.ordered_batch buffer
    · refine (congrArg₂ (· ++ List.map PendingBufferUpdate.call ·)
        (h.applied_batch op buffer b rfl) (filter_pending_ne _ buffer b)).trans ?_
      rw [← h.complete b]
      by_cases hb : b = buffer
      · rw [if_pos hb, if_pos hb, hb, List.map_nil, List.append_nil]
      · rw [if_neg hb, if_neg hb, List.append_nil]
        rfl
    · intro access hmem m hm
      unfold accesses at hmem
      rw [List.map_append, List.append_assoc] at hmem
      rcases List.mem_append.mp hmem with hmem | hmem
      · exact h.bounded access (List.mem_append_left _ hmem) m hm
      · rcases List.mem_cons.mp hmem with rfl | hmem
        · obtain ⟨update, hupdate, _, rfl⟩ := exists_of_mem_pendingFor hm
          exact h.bounded update.access
            (List.mem_append_right _ (List.mem_map_of_mem hupdate)) _ List.mem_cons_self
        · exact h.bounded access
            (List.mem_append_right _ ((List.filter_sublist.map _).subset hmem)) m hm
  · exact h

/-! ## Steps that keep what is bound -/

/-- The slots have what they had; only bits differ. -/
structure SameSlots (c c' : D3D11Context) : Prop where
  shaders : c'.shaders = c.shaders
  constantBuffers : ∀ stage,
    (c'.constantBuffers stage).storage = (c.constantBuffers stage).storage
  srvs : ∀ stage, (c'.bindings.srvs stage).storage = (c.bindings.srvs stage).storage
  outputUAVs : c'.bindings.outputUAVs.storage = c.bindings.outputUAVs.storage
  computeUAVs : c'.bindings.computeUAVs.storage = c.bindings.computeUAVs.storage
  vertexBuffers : c'.bindings.vertexBuffers.storage = c.bindings.vertexBuffers.storage
  streamOutput : c'.bindings.streamOutput.storage = c.bindings.streamOutput.storage
  indexBuffer : c'.bindings.indexBuffer = c.bindings.indexBuffer
  rtvs : c'.bindings.rtvs = c.bindings.rtvs
  numRTVs : c'.bindings.numRTVs = c.bindings.numRTVs

theorem SameSlots.of_eq (hshaders : c'.shaders = c.shaders)
    (hconstants : c'.constantBuffers = c.constantBuffers) (hbindings : c'.bindings = c.bindings) :
    SameSlots c c' := by
  constructor <;> simp only [hshaders, hconstants, hbindings, implies_true]

theorem SameSlots.trans (h : SameSlots c c') (h' : SameSlots c' c'') : SameSlots c c'' where
  shaders := h'.shaders.trans h.shaders
  constantBuffers stage := (h'.constantBuffers stage).trans (h.constantBuffers stage)
  srvs stage := (h'.srvs stage).trans (h.srvs stage)
  outputUAVs := h'.outputUAVs.trans h.outputUAVs
  computeUAVs := h'.computeUAVs.trans h.computeUAVs
  vertexBuffers := h'.vertexBuffers.trans h.vertexBuffers
  streamOutput := h'.streamOutput.trans h.streamOutput
  indexBuffer := h'.indexBuffer.trans h.indexBuffer
  rtvs := h'.rtvs.trans h.rtvs
  numRTVs := h'.numRTVs.trans h.numRTVs

/-- A silent step that also keeps what is bound. -/
structure Still (c c' : D3D11Context) : Prop extends Silent c c', SameSlots c c'

theorem Still.trans (h : Still c c') (h' : Still c' c'') : Still c c'' :=
  ⟨h.toSilent.trans h'.toSilent, h.toSameSlots.trans h'.toSameSlots⟩

theorem still_refl (c : D3D11Context) : Still c c := ⟨.refl c, .of_eq rfl rfl rfl⟩

theorem still_emitST (c : D3D11Context) (op : EncoderOp) : Still c (c.emitST op) :=
  ⟨silent_emitST c op, .of_eq rfl rfl rfl⟩

theorem still_ite {p : Prop} [Decidable p] (h : Still c c') (h' : Still c c'') :
    Still c (if p then c' else c'') := by
  split
  · exact h
  · exact h'

theorem still_foldl {α : Type*} {f : D3D11Context → α → D3D11Context} (hf : ∀ c a, Still c (f c a))
    (xs : List α) (c : D3D11Context) : Still c (xs.foldl f c) := by
  induction xs generalizing c with
  | nil => exact still_refl c
  | cons a xs ih => exact (hf c a).trans (ih (f c a))

/-- The state and the flags are neither commands nor bindings. -/
theorem still_state (c : D3D11Context) (state previous : CommandBufferState)
    (promoteFlush hasDirtyOp : Bool) :
    Still c
      { c with
        cmdbufState := state
        previousRenderPipelineState := previous
        promoteFlush := promoteFlush
        hasDirtyOp := hasDirtyOp } :=
  ⟨.of_eq rfl rfl rfl, .of_eq rfl rfl rfl⟩

theorem still_commit (c : D3D11Context) : Still c c.commit :=
  still_ite (still_refl c) (still_state c _ _ false false)

theorem still_invalidateCurrentPass (c : D3D11Context) (deferCommit : Bool) :
    Still c (c.invalidateCurrentPass deferCommit) := by
  have hcommit : ∀ c : D3D11Context,
      Still c (if c.promoteFlush && !deferCommit then c.commit else c) :=
    fun c => still_ite (still_commit c) (still_refl c)
  unfold invalidateCurrentPass
  dsimp only
  split
  · exact hcommit c
  · exact ((still_emitST c .endPass).trans (still_state _ _ _ _ _)).trans (hcommit _)

theorem still_invalidateRenderPipeline (c : D3D11Context) : Still c c.invalidateRenderPipeline := by
  unfold invalidateRenderPipeline
  split
  · exact still_state c _ _ _ _
  · exact still_refl c

theorem still_invalidateComputePipeline (c : D3D11Context) :
    Still c c.invalidateComputePipeline := by
  unfold invalidateComputePipeline
  split
  · exact still_state c _ _ _ _
  · exact still_refl c

theorem still_setStageDirty (c : D3D11Context) (stage : PipelineStage) :
    Still c (c.setStageDirty stage) :=
  ⟨.of_eq rfl rfl rfl, rfl, BindingSet.storage_update rfl, BindingSet.storage_update rfl,
    rfl, rfl, rfl, rfl, rfl, rfl, rfl⟩

theorem still_setVertexBuffersDirty (c : D3D11Context) : Still c c.setVertexBuffersDirty :=
  ⟨.of_eq rfl rfl rfl, rfl, fun _ => rfl, fun _ => rfl, rfl, rfl, rfl, rfl, rfl, rfl, rfl⟩

theorem still_setOutputUAVsDirty (c : D3D11Context) : Still c c.setOutputUAVsDirty :=
  ⟨.of_eq rfl rfl rfl, rfl, fun _ => rfl, fun _ => rfl, rfl, rfl, rfl, rfl, rfl, rfl, rfl⟩

theorem still_setComputeUAVsDirty (c : D3D11Context) : Still c c.setComputeUAVsDirty :=
  ⟨.of_eq rfl rfl rfl, rfl, fun _ => rfl, fun _ => rfl, rfl, rfl, rfl, rfl, rfl, rfl, rfl⟩

theorem still_setRenderDirty (c : D3D11Context) : Still c c.setRenderDirty :=
  ((still_foldl still_setStageDirty graphicsStages c).trans (still_setVertexBuffersDirty _)).trans
    (still_setOutputUAVsDirty _)

theorem still_switchToRenderEncoder (c : D3D11Context) (viewport : Bool) :
    Still c (c.switchToRenderEncoder viewport).1 := by
  have hdirty := (still_invalidateCurrentPass c false).trans (still_setRenderDirty _)
  unfold switchToRenderEncoder
  split
  · exact still_refl c
  · exact still_refl c
  · dsimp only
    split
    · exact hdirty
    · exact (hdirty.trans (still_emitST _ .startRenderPass)).trans (still_state _ _ _ _ _)

theorem still_switchToBlitEncoder (c : D3D11Context) (kind : BlitKind) :
    Still c (c.switchToBlitEncoder kind) :=
  still_ite (still_refl c) (((still_invalidateCurrentPass c _).trans
    (still_emitST _ .startBlitPass)).trans (still_state _ _ _ _ _))

theorem still_switchToComputeEncoder (c : D3D11Context) : Still c c.switchToComputeEncoder := by
  unfold switchToComputeEncoder
  split
  · exact still_refl c
  · exact still_refl c
  · exact ((((still_invalidateCurrentPass c false).trans (still_setStageDirty _ .compute)).trans
      (still_setComputeUAVsDirty _)).trans (still_emitST _ .startComputePass)).trans
        (still_state _ _ _ _ _)

theorem still_setRenderPipeline (c : D3D11Context) (kind : PipelineKind) (compiled : Bool) :
    Still c (c.setRenderPipeline kind compiled) := by
  have hset := (still_emitST c (if compiled then .setRenderPipeline kind else .other)).trans
    (still_state _ (.renderPipelineReady kind) c.previousRenderPipelineState c.promoteFlush
      c.hasDirtyOp)
  exact still_ite hset (((hset.trans (still_setVertexBuffersDirty _)).trans
    (still_foldl still_setStageDirty kind.dirtyStages _)).trans (still_state _ _ _ _ _))

theorem still_finalizeCurrentRenderPipeline (c : D3D11Context) (d : DrawInputs) :
    Still c (c.finalizeCurrentRenderPipeline d).1 := by
  have hs := still_switchToRenderEncoder c d.viewport
  have hf := finalized c d
  generalize c.finalizeCurrentRenderPipeline d = result at hf ⊢
  cases hf with
  | ready _ _ => exact still_refl c
  | invalid => exact still_refl c
  | unsupported => exact still_emitST c .other
  | noTarget c' hswitch => rwa [hswitch] at hs
  | notCreated c' hswitch => rwa [hswitch] at hs
  | set c' kind _ hswitch =>
    rw [hswitch] at hs
    exact hs.trans (still_setRenderPipeline c' kind d.compiled)

theorem still_finalizeCurrentComputePipeline (c : D3D11Context) (compiled : Bool) :
    Still c (c.finalizeCurrentComputePipeline compiled).1 := by
  have hs := still_switchToComputeEncoder c
  unfold finalizeCurrentComputePipeline
  split
  · exact still_refl c
  · dsimp only
    split
    · exact hs
    · exact (hs.trans (still_emitST _ _)).trans (still_state _ _ _ _ _)

theorem still_uploadConstantBuffers (c : D3D11Context) (stage : PipelineStage) (kind : PipelineKind)
    (shader : ManagedShader) :
    Still c (c.uploadConstantBuffers stage kind shader) :=
  (still_emitST c _).trans
    ⟨.of_eq rfl rfl rfl, rfl, BindingSet.storage_update rfl, fun _ => rfl,
      rfl, rfl, rfl, rfl, rfl, rfl, rfl⟩

theorem still_uploadArguments (c : D3D11Context) (stage : PipelineStage) (kind : PipelineKind)
    (shader : ManagedShader) : Still c (c.uploadArguments stage kind shader) := by
  have hclear : Still c
      { c.emitST (.encodeShaderResources stage kind
          (shader.arguments.map fun arg => (arg, c.snapshot stage arg))) with
        samplers := Function.update c.samplers stage (c.samplers stage).clearDirty
        bindings := c.bindings.setSRVs stage (c.bindings.srvs stage).clearDirty } :=
    (still_emitST c _).trans
      ⟨.of_eq rfl rfl rfl, rfl, fun _ => rfl, BindingSet.storage_update rfl,
        rfl, rfl, rfl, rfl, rfl, rfl, rfl⟩
  unfold uploadArguments
  refine still_ite ?_ (still_ite ?_ hclear)
  · exact hclear.trans
      ⟨.of_eq rfl rfl rfl, rfl, fun _ => rfl, fun _ => rfl, rfl, rfl, rfl, rfl, rfl, rfl, rfl⟩
  · exact hclear.trans
      ⟨.of_eq rfl rfl rfl, rfl, fun _ => rfl, fun _ => rfl, rfl, rfl, rfl, rfl, rfl, rfl, rfl⟩

theorem still_upload (c : D3D11Context) (stage : PipelineStage) (kind : PipelineKind) :
    Still c (c.uploadShaderStageResourceBinding stage kind) := by
  cases hshader : c.shaders stage with
  | none =>
    unfold uploadShaderStageResourceBinding
    rw [hshader]
    exact still_refl c
  | some shader =>
    rw [uploadShaderStageResourceBinding_eq c hshader]
    have hconstants := still_ite
      (p := shader.constantBuffers ≠ [] ∧ c.dirtyCBuffer stage shader = true)
      (still_uploadConstantBuffers c stage kind shader) (still_refl c)
    exact still_ite (hconstants.trans (still_uploadArguments _ stage kind shader)) hconstants

/-! ## Flushes -/

theorem sameSlots_emitBatch (c : D3D11Context) (op : EncoderOp) (buffer : Nat) :
    SameSlots c (c.emitBatch op buffer) := by
  unfold emitBatch
  split <;> exact .of_eq rfl rfl rfl

/-- A step of the invariant that keeps what is bound. -/
structure Flushes (c c' : D3D11Context) : Prop extends SameSlots c c' where
  inCall : ∀ updates n, InCall updates n c → InCall updates n c'

theorem Flushes.trans (h : Flushes c c') (h' : Flushes c' c'') : Flushes c c'' :=
  ⟨h.toSameSlots.trans h'.toSameSlots, fun updates n hc =>
    h'.inCall updates n (h.inCall updates n hc)⟩

theorem Still.flushes (h : Still c c') : Flushes c c' :=
  ⟨h.toSameSlots, fun _ _ hc => hc.silent h.toSilent⟩

theorem flushes_refl (c : D3D11Context) : Flushes c c := (still_refl c).flushes

theorem flushes_foldl {α : Type*} {f : D3D11Context → α → D3D11Context}
    (hf : ∀ c a, Flushes c (f c a)) (xs : List α) (c : D3D11Context) :
    Flushes c (xs.foldl f c) := by
  induction xs generalizing c with
  | nil => exact flushes_refl c
  | cons a xs ih => exact (hf c a).trans (ih (f c a))

theorem flushes_ite {p : Prop} [Decidable p] (h : Flushes c c') (h' : Flushes c c'') :
    Flushes c (if p then c' else c'') := by
  split
  · exact h
  · exact h'

theorem flushes_emitBatch (c : D3D11Context) (op : EncoderOp) (buffer : Nat) :
    Flushes c (c.emitBatch op buffer) :=
  ⟨sameSlots_emitBatch c op buffer, fun _ _ hc => hc.emitBatch op buffer⟩

theorem flushes_flushPendingBufferUpdatesFor (c : D3D11Context) (buffer : Nat) :
    Flushes c (c.flushPendingBufferUpdatesFor buffer) :=
  flushes_ite ((still_switchToBlitEncoder c .update).flushes.trans (flushes_emitBatch _ _ buffer))
    (flushes_refl c)

theorem flushes_flushPendingBufferUpdatesForMany (c : D3D11Context) (buffers : List Nat) :
    Flushes c (c.flushPendingBufferUpdatesForMany buffers) :=
  flushes_ite ((still_switchToBlitEncoder c .update).flushes.trans
    (flushes_foldl (fun c buffer => flushes_emitBatch c _ buffer) buffers _)) (flushes_refl c)

theorem flushes_flushPendingBufferUpdatesForCompute (c : D3D11Context) (buffer : Nat) :
    Flushes c (c.flushPendingBufferUpdatesForCompute buffer) :=
  flushes_ite (((still_switchToComputeEncoder c).flushes.trans
    (flushes_emitBatch _ _ buffer)).trans (still_invalidateComputePipeline _).flushes)
    (flushes_refl c)

/-- All waiting updates are written; nothing else happens to buffers. -/
theorem flushes_flushAllPendingBufferUpdates (c : D3D11Context) :
    Flushes c c.flushAllPendingBufferUpdates :=
  flushes_ite (flushes_refl c) ((still_switchToBlitEncoder c .update).flushes.trans
    (flushes_foldl (fun c buffer => flushes_emitBatch c _ buffer) _ _))

/-- A draw writes what waits for the buffers that are bound for it. -/
theorem flushes_flushPendingBufferUpdatesForDrawBindings (c : D3D11Context) :
    Flushes c c.flushPendingBufferUpdatesForDrawBindings :=
  flushes_ite (flushes_flushPendingBufferUpdatesForMany c _) (flushes_refl c)

/-- A dispatch writes what waits for the buffers that are bound for it. -/
theorem flushes_flushPendingBufferUpdatesForComputeBindings (c : D3D11Context) :
    Flushes c c.flushPendingBufferUpdatesForComputeBindings :=
  flushes_ite (flushes_foldl flushes_flushPendingBufferUpdatesForCompute _ c) (flushes_refl c)

theorem flushes_flushArguments (c : D3D11Context) (indirect : Option (Option Nat)) :
    Flushes c (c.flushArguments indirect) := by
  unfold flushArguments
  split
  · exact flushes_flushPendingBufferUpdatesFor c _
  · exact flushes_refl c

/-- Up to its draw, a call writes waiting updates only. -/
theorem flushes_preDraw (c : D3D11Context) (d : DrawInputs) : Flushes c (c.preDraw d).1 := by
  have hflush := flushes_flushPendingBufferUpdatesForDrawBindings c
  have hfinal := still_finalizeCurrentRenderPipeline c.flushPendingBufferUpdatesForDrawBindings d
  rw [preDraw_eq]
  split
  · exact hflush
  · generalize c.flushPendingBufferUpdatesForDrawBindings.finalizeCurrentRenderPipeline d = result
      at hfinal ⊢
    obtain ⟨p, status⟩ := result
    cases status with
    | none => exact hflush.trans hfinal.flushes
    | some kind =>
      exact (hflush.trans hfinal.flushes).trans
        (still_foldl (fun c stage => still_upload c stage kind) kind.stages p).flushes

/-- Up to its dispatch, a call writes waiting updates only. -/
theorem flushes_preDispatch (c : D3D11Context) (d : DispatchInputs) :
    Flushes c (c.preDispatch d).1 := by
  have hflush := flushes_flushPendingBufferUpdatesForComputeBindings c
  have hfinal := still_finalizeCurrentComputePipeline
    c.flushPendingBufferUpdatesForComputeBindings d.compiled
  unfold preDispatch
  generalize c.flushPendingBufferUpdatesForComputeBindings.finalizeCurrentComputePipeline
    d.compiled = result at hfinal ⊢
  obtain ⟨p, status⟩ := result
  cases status with
  | false => exact hflush.trans hfinal.flushes
  | true => exact (hflush.trans hfinal.flushes).trans (still_upload p .compute .ordinary).flushes

/-! ## What a draw uses -/

/-- A buffer in a slot that is used is in a slot. -/
theorem mem_buffersMasked {Element : Type*} {set : BindingSet Element} {mask : List Nat}
    {count : Nat} {buffer : Element → Option Nat} (hmask : ∀ slot ∈ mask, slot < count) {b : Nat}
    (h : b ∈ set.buffersMasked mask buffer) : b ∈ set.buffers count buffer := by
  obtain ⟨slot, hslot, hb⟩ := List.mem_filterMap.mp h
  exact List.mem_filterMap.mpr ⟨slot, List.mem_range.mpr (hmask slot hslot), hb⟩

theorem buffers_mono {Element : Type*} {set : BindingSet Element} {m n : Nat} (hle : m ≤ n)
    {buffer : Element → Option Nat} {b : Nat} (h : b ∈ set.buffers m buffer) :
    b ∈ set.buffers n buffer := by
  obtain ⟨slot, hslot, hb⟩ := List.mem_filterMap.mp h
  exact List.mem_filterMap.mpr
    ⟨slot, List.mem_range.mpr (Nat.lt_of_lt_of_le (List.mem_range.mp hslot) hle), hb⟩

theorem lt_of_mem_slotsOf {shader : ManagedShader} (type : SM50BindingType) {slot : Nat}
    (h : slot ∈ shader.slotsOf type) : slot < type.slotCount := by
  obtain ⟨arg, harg, rfl⟩ := List.mem_map.mp h
  obtain ⟨hmem, htype⟩ := List.mem_filter.mp harg
  have hlt := shader.arguments_lt arg hmem
  rwa [of_decide_eq_true htype] at hlt

/-- A target that is in use is a target. -/
theorem mem_renderTargetBuffers {b : Nat}
    (h : b ∈ c.renderTargetBuffers (min c.bindings.numRTVs renderTargetCount)) :
    b ∈ c.renderTargetBuffers renderTargetCount := by
  obtain ⟨slot, hslot, hb⟩ := List.mem_filterMap.mp h
  exact List.mem_filterMap.mpr ⟨slot, List.mem_range.mpr (Nat.lt_of_lt_of_le
    (List.mem_range.mp hslot) (Nat.min_le_right ..)), hb⟩

theorem stages_subset {kind : PipelineKind} {stage : PipelineStage} (h : stage ∈ kind.stages) :
    stage ∈ graphicsStages ∧ stage ≠ .compute := by
  cases kind <;> cases stage <;> revert h <;> decide

/-- The unordered access views of a draw are among those that the flush looks at. -/
theorem mem_shaderUAVBuffers {stage : PipelineStage} {b : Nat} (h : b ∈ c.shaderUAVBuffers stage) :
    b ∈ (c.uavs stage).buffers uavSlotCount D3D11View.buffer := by
  unfold shaderUAVBuffers at h
  split at h
  · cases h
  · next shader _ =>
    exact mem_buffersMasked (fun slot hslot => lt_of_mem_slotsOf .uav hslot) h

/-- What a stage reads is bound to one of its slots. -/
theorem mem_stageReads {stage : PipelineStage} {b : Nat} (h : b ∈ c.stageReads stage) :
    b ∈ c.shaderConstantBuffers stage ∨ b ∈ c.shaderViewBuffers stage ∨
      b ∈ (c.uavs stage).buffers uavSlotCount D3D11View.buffer := by
  rcases List.mem_append.mp h with h | h
  · rcases List.mem_append.mp h with h | h
    · exact .inl h
    · exact .inr (.inl h)
  · exact .inr (.inr (mem_shaderUAVBuffers h))

/-- What a draw uses is looked at by its flush, or is a constant buffer of its stages. -/
theorem mem_drawBindingBuffers {d : DrawInputs} {kind : PipelineKind} {b : Nat}
    (h : b ∈ c.drawReads d kind ++ c.drawWrites kind) :
    b ∈ c.drawBindingBuffers ∨ ∃ stage ∈ kind.stages, b ∈ c.shaderConstantBuffers stage := by
  have huavs : ∀ stage ∈ kind.stages, b ∈ (c.uavs stage).buffers uavSlotCount D3D11View.buffer →
      b ∈ c.drawBindingBuffers := by
    intro stage hstage hb
    unfold uavs at hb
    rw [if_neg (stages_subset hstage).2] at hb
    simp only [drawBindingBuffers, List.mem_append, hb, true_or, or_true]
  have htargets : b ∈ c.renderTargetBuffers (min c.bindings.numRTVs renderTargetCount) →
      b ∈ c.drawBindingBuffers := fun hb => by
    simp only [drawBindingBuffers, List.mem_append, mem_renderTargetBuffers hb, true_or, or_true]
  rcases List.mem_append.mp h with h | h
  · rcases List.mem_append.mp h with h | h
    · rcases List.mem_append.mp h with h | h
      · rcases List.mem_append.mp h with h | h
        · have hb := mem_buffersMasked (fun slot hslot =>
            List.mem_range.mp (List.mem_filter.mp hslot).1) h
          simp only [drawBindingBuffers, List.mem_append, hb, true_or]
        · split at h
          · simp only [drawBindingBuffers, List.mem_append, h, true_or, or_true]
          · cases h
      · obtain ⟨stage, hstage, hb⟩ := List.mem_flatMap.mp h
        rcases mem_stageReads hb with hb | hb | hb
        · exact .inr ⟨stage, hstage, hb⟩
        · have hb := List.mem_flatMap.mpr ⟨stage, (stages_subset hstage).1, hb⟩
          simp only [drawBindingBuffers, List.mem_append, hb, true_or, or_true]
        · exact .inl (huavs stage hstage hb)
    · exact .inl (htargets h)
  · rcases List.mem_append.mp h with h | h
    · rcases List.mem_append.mp h with h | h
      · obtain ⟨stage, hstage, hb⟩ := List.mem_flatMap.mp h
        exact .inl (huavs stage hstage (mem_shaderUAVBuffers hb))
      · exact .inl (htargets h)
    · split at h
      · have hb := buffers_mono (n := streamOutputSlotCount) (by decide) h
        simp only [drawBindingBuffers, List.mem_append, hb, true_or, or_true]
      · cases h

/-- What a dispatch reads is flushed, or is a constant buffer. -/
theorem mem_computeBuffers {b : Nat}
    (h : b ∈ c.stageReads .compute ++ c.shaderUAVBuffers .compute) :
    b ∈ c.computeBindingBuffers ∨ b ∈ c.shaderConstantBuffers .compute := by
  have huavs : b ∈ (c.uavs .compute).buffers uavSlotCount D3D11View.buffer →
      b ∈ c.computeBindingBuffers := List.mem_append_right _
  rcases List.mem_append.mp h with h | h
  · rcases mem_stageReads h with hb | hb | hb
    · exact .inr hb
    · refine .inl (List.mem_append_left _ ?_)
      unfold shaderViewBuffers at hb
      split at hb
      · cases hb
      · exact mem_buffersMasked (fun slot hslot => lt_of_mem_slotsOf .srv hslot) hb
    · exact .inl (huavs hb)
  · exact .inl (huavs (mem_shaderUAVBuffers h))

/-! ## The slots of a draw are those of the flush -/

theorem SameSlots.shaderConstantBuffers (h : SameSlots c c') (stage : PipelineStage) :
    c'.shaderConstantBuffers stage = c.shaderConstantBuffers stage := by
  unfold D3D11Context.shaderConstantBuffers BindingSet.buffersMasked
  rw [h.shaders, h.constantBuffers]

theorem SameSlots.shaderViewBuffers (h : SameSlots c c') (stage : PipelineStage) :
    c'.shaderViewBuffers stage = c.shaderViewBuffers stage := by
  unfold D3D11Context.shaderViewBuffers BindingSet.buffersMasked
  rw [h.shaders, h.srvs]

theorem SameSlots.uavs (h : SameSlots c c') (stage : PipelineStage) :
    (c'.uavs stage).storage = (c.uavs stage).storage := by
  unfold D3D11Context.uavs
  split
  · exact h.computeUAVs
  · exact h.outputUAVs

theorem SameSlots.shaderUAVBuffers (h : SameSlots c c') (stage : PipelineStage) :
    c'.shaderUAVBuffers stage = c.shaderUAVBuffers stage := by
  unfold D3D11Context.shaderUAVBuffers BindingSet.buffersMasked
  rw [h.shaders, h.uavs]

/-- A stage reads the same buffers where its slots are the same. -/
theorem SameSlots.stageReads (h : SameSlots c c') (stage : PipelineStage) :
    c'.stageReads stage = c.stageReads stage := by
  unfold D3D11Context.stageReads
  rw [h.shaderConstantBuffers, h.shaderViewBuffers, h.shaderUAVBuffers]

/-- A draw reads the same buffers where the slots are the same. -/
theorem SameSlots.drawReads (h : SameSlots c c') (d : DrawInputs) (kind : PipelineKind) :
    c'.drawReads d kind = c.drawReads d kind := by
  have hstages := funext h.stageReads
  unfold D3D11Context.drawReads D3D11Context.renderTargetBuffers BindingSet.buffersMasked
  rw [h.vertexBuffers, h.indexBuffer, hstages, h.rtvs, h.numRTVs]

/-- A draw writes the same buffers where the slots are the same. -/
theorem SameSlots.drawWrites (h : SameSlots c c') (kind : PipelineKind) :
    c'.drawWrites kind = c.drawWrites kind := by
  have hstages := funext h.shaderUAVBuffers
  unfold D3D11Context.drawWrites D3D11Context.renderTargetBuffers BindingSet.buffers
  rw [hstages, h.rtvs, h.numRTVs, h.shaders, h.streamOutput]

/-! ## Draws and dispatches -/

/-- Flushing adds no waiting update. -/
theorem not_pending_of_subset {buffer : Nat}
    (h : ∀ update ∈ c'.pendingBufferUpdates, update ∈ c.pendingBufferUpdates)
    (hnone : c.hasPendingBufferUpdateFor buffer = false) :
    c'.hasPendingBufferUpdateFor buffer = false := by
  by_contra hpending
  obtain ⟨update, hupdate, hdst⟩ :=
    (hasPendingBufferUpdateFor_iff _ buffer).mp (Bool.not_eq_false _ |>.mp hpending)
  exact notMem_of_not_pending hnone (h update hupdate) hdst

/-- Nothing waits for a buffer that has been flushed. -/
theorem not_pending_flushPendingBufferUpdatesFor (c : D3D11Context) (buffer : Nat) :
    (c.flushPendingBufferUpdatesFor buffer).hasPendingBufferUpdateFor buffer = false := by
  unfold hasPendingBufferUpdateFor
  rw [pending_flushPendingBufferUpdatesFor, List.any_filter, List.any_eq_false]
  simp

theorem pending_flushFor_subset (c : D3D11Context) (buffer : Nat) :
    ∀ update ∈ (c.flushPendingBufferUpdatesFor buffer).pendingBufferUpdates,
      update ∈ c.pendingBufferUpdates := by
  rw [pending_flushPendingBufferUpdatesFor]
  exact fun update hupdate => (List.mem_filter.mp hupdate).1

/-- Nothing is queued for the arguments of the call any more, nor for a buffer without updates. -/
theorem not_pending_flushArguments {indirect : Option (Option Nat)} {buffer : Nat}
    (h : indirect = some (some buffer) ∨ c.hasPendingBufferUpdateFor buffer = false) :
    (c.flushArguments indirect).hasPendingBufferUpdateFor buffer = false := by
  rcases h with rfl | hnone
  · exact not_pending_flushPendingBufferUpdatesFor c buffer
  · refine not_pending_of_subset ?_ hnone
    unfold flushArguments
    split
    · exact pending_flushFor_subset c _
    · exact fun _ h => h

theorem eq_some_of_mem_join {indirect : Option (Option Nat)} {buffer : Nat}
    (h : buffer ∈ indirect.join.toList) : indirect = some (some buffer) := by
  match indirect with
  | none => cases h
  | some none => cases h
  | some (some arguments) =>
    cases List.mem_singleton.mp h
    rfl

/-- After `PreDraw`, a buffer of the draw has no update but that of the arguments. -/
theorem not_pending_preDraw {d : DrawInputs} {kind : PipelineKind} (hd : c.drawn d = some kind)
    (hmeets : c.UpdatesMeet (.draw d)) {buffer : Nat}
    (hmem : buffer ∈ c.drawReads d kind ++ c.drawWrites kind) :
    d.indirect = some (some buffer) ∨
      (c.preDraw d).1.hasPendingBufferUpdateFor buffer = false := by
  unfold hasPendingBufferUpdateFor
  rw [pending_preDraw]
  by_cases hindirect : d.indirect = some (some buffer)
  · exact .inl hindirect
  · refine .inr (c.pending_flushPendingBufferUpdatesForDrawBindings fun hpending => ?_)
    rcases mem_drawBindingBuffers hmem with hbinding | ⟨stage, hstage, hconstant⟩
    · exact Bool.and_eq_true_iff.mpr ⟨List.any_eq_true.mpr ⟨buffer, hbinding, hpending⟩,
        decide_eq_true (List.mem_append_left _ hbinding)⟩
    · have hmem := List.mem_flatMap.mpr ⟨stage, (stages_subset hstage).1, hconstant⟩
      rcases hmeets kind hd stage hstage buffer hconstant hpending with hany | harguments
      · exact Bool.and_eq_true_iff.mpr ⟨hany, decide_eq_true (List.mem_append_right _ hmem)⟩
      · exact absurd harguments hindirect

/-- A draw that meets the condition comes after the updates of its buffers. -/
theorem InCall.draw (h : InCall updates n c) {d : DrawInputs} (hmeets : c.UpdatesMeet (.draw d)) :
    InCall updates n (c.draw d) := by
  have hpre := flushes_preDraw c d
  cases hd : c.drawn d with
  | none =>
    rcases c.draw_of_not_drawn hd with heq | heq
    · rw [heq]
      exact h
    · rw [heq]
      exact hpre.inCall updates n h
  | some kind =>
    have hflush := hpre.trans (flushes_flushArguments _ d.indirect)
    rw [c.draw_of_drawn hd]
    refine (hflush.inCall updates n h).emit rfl rfl rfl rfl fun buffer hmem => ?_
    rw [hflush.drawReads, hflush.drawWrites, List.append_assoc] at hmem
    refine not_pending_flushArguments ?_
    rcases List.mem_append.mp hmem with hmem | hmem
    · exact .inl (eq_some_of_mem_join hmem)
    · exact not_pending_preDraw hd hmeets hmem

/-- Nothing waits for a buffer of a dispatch, its indirect arguments aside. -/
theorem not_pending_preDispatch {d : DispatchInputs} (hd : c.dispatched d = true)
    (hmeets : c.UpdatesMeet (.dispatch d)) {buffer : Nat}
    (hmem : buffer ∈ c.stageReads .compute ++ c.shaderUAVBuffers .compute) :
    d.indirect = some (some buffer) ∨
      (c.preDispatch d).1.hasPendingBufferUpdateFor buffer = false := by
  unfold hasPendingBufferUpdateFor
  rw [pending_preDispatch]
  by_cases hindirect : d.indirect = some (some buffer)
  · exact .inl hindirect
  · refine .inr (c.pending_flushPendingBufferUpdatesForComputeBindings fun hpending => ?_)
    rcases mem_computeBuffers hmem with hbinding | hconstant
    · exact Bool.and_eq_true_iff.mpr ⟨List.any_eq_true.mpr ⟨buffer, hbinding, hpending⟩,
        decide_eq_true (List.mem_append_right _ hbinding)⟩
    · have hmem : buffer ∈ (c.constantBuffers .compute).buffers constantBufferSlotCount fun entry =>
          some entry.buffer.id := by
        unfold shaderConstantBuffers at hconstant
        split at hconstant
        · cases hconstant
        · next shader _ => exact mem_buffersMasked shader.constantBuffers_lt hconstant
      rcases hmeets hd buffer hconstant hpending with hany | harguments
      · exact Bool.and_eq_true_iff.mpr ⟨hany, decide_eq_true (List.mem_append_left _ hmem)⟩
      · exact absurd harguments hindirect

/-- A dispatch that meets the condition comes after the updates of its buffers. -/
theorem InCall.dispatch (h : InCall updates n c) {d : DispatchInputs}
    (hmeets : c.UpdatesMeet (.dispatch d)) : InCall updates n (c.dispatch d) := by
  have hpre := flushes_preDispatch c d
  cases hd : c.dispatched d with
  | false =>
    rw [c.dispatch_of_not_dispatched hd]
    exact hpre.inCall updates n h
  | true =>
    have hflush := hpre.trans (flushes_flushArguments _ d.indirect)
    rw [c.dispatch_of_dispatched hd]
    refine (hflush.inCall updates n h).emit rfl rfl rfl rfl fun buffer hmem => ?_
    rw [hflush.stageReads, hflush.shaderUAVBuffers, List.append_assoc] at hmem
    refine not_pending_flushArguments ?_
    rcases List.mem_append.mp hmem with hmem | hmem
    · exact .inl (eq_some_of_mem_join hmem)
    · exact not_pending_preDispatch hd hmeets hmem

/-! ## The other calls -/

/-- An operation on buffers that nothing waits for keeps the order. -/
theorem InCall.emitOP (h : InCall updates n c) (op : EncoderOp) {reads writes : List Nat}
    (hnone : ∀ buffer ∈ reads ++ writes, c.hasPendingBufferUpdateFor buffer = false) :
    InCall updates n (c.emitOP op reads writes) :=
  h.emit rfl rfl rfl rfl hnone

theorem Silent.not_pending (h : Silent c c') {buffer : Nat}
    (hnone : c.hasPendingBufferUpdateFor buffer = false) :
    c'.hasPendingBufferUpdateFor buffer = false := by
  unfold hasPendingBufferUpdateFor
  rw [h.pending]
  exact hnone

/-- A command after a silent step, of buffers that had no update. -/
theorem InCall.emitAfter (h : InCall updates n c) (hs : Silent c c') (op : EncoderOp)
    {reads writes : List Nat}
    (hnone : ∀ buffer ∈ reads ++ writes, c.hasPendingBufferUpdateFor buffer = false) :
    InCall updates n (c'.emitOP op reads writes) :=
  (h.silent hs).emitOP op fun buffer hmem => hs.not_pending (hnone buffer hmem)

theorem silent_ite {p : Prop} [Decidable p] (h : Silent c c') (h' : Silent c c'') :
    Silent c (if p then c' else c'') := by
  split
  · exact h
  · exact h'

/-- Silent steps one after the other. -/
theorem silent_foldl {α : Type*} {f : D3D11Context → α → D3D11Context}
    (hf : ∀ c a, Silent c (f c a)) (xs : List α) (c : D3D11Context) : Silent c (xs.foldl f c) := by
  induction xs generalizing c with
  | nil => exact .refl c
  | cons a xs ih => exact (hf c a).trans (ih (f c a))

/-- A shader touches no buffer. -/
theorem silent_setShader (c : D3D11Context) (stage : PipelineStage)
    (shader : Option ManagedShader) : Silent c (c.setShader stage shader) := by
  have hshaders : ∀ shader, Silent c
      { c with shaders := Function.update c.shaders stage shader } := fun _ => .of_eq rfl rfl rfl
  have hvertex : ∀ c : D3D11Context,
      Silent c (if stage = .vertex then c.setVertexBuffersDirty else c) :=
    fun c => silent_ite (still_setVertexBuffersDirty c).toSilent (.refl c)
  have hinvalidate : ∀ c : D3D11Context,
      Silent c (if stage = .compute then c.setComputeUAVsDirty.invalidateComputePipeline
        else c.setOutputUAVsDirty.invalidateRenderPipeline) := fun c =>
    silent_ite ((still_setComputeUAVsDirty c).trans (still_invalidateComputePipeline _)).toSilent
      ((still_setOutputUAVsDirty c).trans (still_invalidateRenderPipeline _)).toSilent
  cases shader with
  | none =>
    exact silent_ite ((hshaders none).trans (still_invalidateComputePipeline _).toSilent)
      ((hshaders none).trans (still_invalidateRenderPipeline _).toSilent)
  | some s =>
    exact silent_ite (.refl c) ((((hshaders (some s)).trans
      (still_setStageDirty _ stage).toSilent).trans (hvertex _)).trans (hinvalidate _))

theorem silent_bindings (c : D3D11Context) (bindings : Bindings) :
    Silent c { c with bindings := bindings } := .of_eq rfl rfl rfl

theorem silent_setShaderResource (c : D3D11Context) (stage : PipelineStage) (start : Nat)
    (views : List (Option D3D11View)) : Silent c (c.setShaderResource stage start views) := by
  have hset := silent_bindings c (Bindings.setShaderResource stage start views c.bindings)
  exact silent_ite (hset.trans (still_invalidateRenderPipeline _).toSilent) hset

theorem silent_csSetUnorderedAccessViews (c : D3D11Context) (start : Nat)
    (views : List (Option D3D11View)) : Silent c (c.csSetUnorderedAccessViews start views) := by
  refine silent_ite (.refl c) (silent_ite (.refl c) ?_)
  refine .trans (silent_foldl (fun c slot => ?_) _ c) (silent_foldl (fun c slot => ?_) _ _)
  · exact silent_ite (.refl c) (silent_ite ((silent_emitST c _).trans (silent_bindings _ _))
      (.refl c))
  · exact (silent_ite (silent_emitST c _) (.refl c)).trans (silent_bindings _ _)

theorem silent_setOutputUAVs (c : D3D11Context) (setsRTVs : Bool) (start : Nat)
    (uavs : List (Option D3D11View)) : Silent c (c.setOutputUAVs setsRTVs start uavs) := by
  refine .trans (silent_bindings c _) (silent_foldl (fun c slot => ?_) _ _)
  exact (silent_ite (silent_emitST c _) (.refl c)).trans (silent_bindings _ _)

/-- Targets touch no buffer. -/
theorem silent_omSet (c : D3D11Context) (rtvs : Option (List (Option D3D11TargetView)))
    (dsv : Option D3D11TargetView) (start : Nat) (uavs : Option (List (Option D3D11View))) :
    Silent c (c.omSetRenderTargetsAndUnorderedAccessViews rtvs dsv start uavs) := by
  have hviews : ∀ renderTarget targets, Silent c
      (uavs.elim (c.withRenderTargets renderTarget targets dsv)
        ((c.withRenderTargets renderTarget targets dsv).setOutputUAVs true start)) := by
    intro renderTarget targets
    have hset : Silent c (c.withRenderTargets renderTarget targets dsv) := silent_bindings c _
    cases uavs with
    | none => exact hset
    | some views => exact hset.trans (silent_setOutputUAVs _ _ _ _)
  obtain heq | ⟨views, heq⟩ | ⟨renderTarget, targets, changed, heq⟩ :=
    omSet_cases c rtvs dsv start uavs
  · rw [heq]
    exact .refl c
  · rw [heq]
    exact silent_setOutputUAVs c _ _ _
  · rw [heq]
    have hset := hviews renderTarget targets
    exact silent_ite (hset.trans (still_invalidateCurrentPass _ false).toSilent) hset

/-- A clear comes after the updates of its buffer. -/
theorem InCall.clearRenderTargetView (h : InCall updates n c) (buffer : Option Nat) :
    InCall updates n (c.clearRenderTargetView buffer) := by
  cases buffer with
  | none =>
    exact h.emitAfter (still_invalidateCurrentPass c false).toSilent _ fun _ hmem =>
      absurd hmem List.not_mem_nil
  | some buffer =>
    have hflush := (flushes_flushPendingBufferUpdatesFor c buffer).inCall updates n h
    refine hflush.emitAfter (still_invalidateCurrentPass _ false).toSilent _ fun b hmem => ?_
    cases List.mem_singleton.mp hmem
    exact not_pending_flushPendingBufferUpdatesFor c buffer

/-- A clear comes after the updates of its buffer. -/
theorem InCall.clearUnorderedAccessView (h : InCall updates n c) (buffer : Option Nat) :
    InCall updates n (c.clearUnorderedAccessView buffer) := by
  have hpass : ∀ c : D3D11Context, Silent c (c.invalidateCurrentPass true).switchToComputeEncoder :=
    fun c => ((still_invalidateCurrentPass c true).trans (still_switchToComputeEncoder _)).toSilent
  have hend := fun c : D3D11Context => (still_invalidateCurrentPass c false).toSilent
  cases buffer with
  | none =>
    exact (h.emitAfter (hpass c) .emulated fun _ hmem =>
      absurd hmem List.not_mem_nil).silent (hend _)
  | some buffer =>
    have hflush := (flushes_flushPendingBufferUpdatesFor c buffer).inCall updates n h
    refine (hflush.emitAfter (hpass _) .emulated fun b hmem => ?_).silent (hend _)
    cases List.mem_singleton.mp hmem
    exact not_pending_flushPendingBufferUpdatesFor c buffer

/-- A copy comes after the updates of both buffers. -/
theorem InCall.copyBuffer (h : InCall updates n c) (dst src : Nat)
    (stagingDst stagingSrc empty : Bool) :
    InCall updates n (c.copyBuffer dst src stagingDst stagingSrc empty) := by
  have hflush := ((flushes_flushPendingBufferUpdatesFor c dst).trans
    (flushes_flushPendingBufferUpdatesFor _ src)).inCall updates n h
  have hsrc := not_pending_flushPendingBufferUpdatesFor (c.flushPendingBufferUpdatesFor dst) src
  have hdst :=
    not_pending_of_subset (pending_flushFor_subset (c.flushPendingBufferUpdatesFor dst) src)
    (not_pending_flushPendingBufferUpdatesFor c dst)
  unfold D3D11Context.copyBuffer
  dsimp only
  split
  · exact hflush
  · have hnone : ∀ b ∈ [src] ++ [dst], ((c.flushPendingBufferUpdatesFor dst
        ).flushPendingBufferUpdatesFor src).hasPendingBufferUpdateFor b = false := by
      intro b hmem
      rcases List.mem_cons.mp hmem with rfl | hmem
      · exact hsrc
      · cases List.mem_singleton.mp hmem
        exact hdst
    have hcopy := hflush.emitAfter (still_switchToBlitEncoder _
      (copyKind stagingDst stagingSrc)).toSilent .blit hnone
    split
    · exact hcopy.congr rfl rfl rfl
    · exact hcopy

/-- A copy comes after the updates of its buffers, where they are flushed. -/
theorem InCall.copyTexture (h : InCall updates n c) {dst src : Option Nat}
    {emulatedDepthStencil : Bool}
    (hmeets : c.UpdatesMeet (.copyTexture dst src emulatedDepthStencil)) :
    InCall updates n (c.copyTexture dst src emulatedDepthStencil) := by
  have hnone : ∀ b ∈ src.toList ++ dst.toList, c.hasPendingBufferUpdateFor b = false := by
    intro b hmem
    rcases List.mem_append.mp hmem with hmem | hmem
    · exact hmeets b (.inr (Option.mem_toList.mp hmem))
    · exact hmeets b (.inl (Option.mem_toList.mp hmem))
  have hpasses := h.emitAfter (still_invalidateCurrentPass c true).toSilent .passes hnone
  have hblit := h.emitAfter (still_switchToBlitEncoder c
    (copyKind dst.isSome src.isSome)).toSilent .blit hnone
  unfold D3D11Context.copyTexture
  dsimp only
  split
  · split
    · exact hpasses.congr rfl rfl rfl
    · exact hblit.congr rfl rfl rfl
  · split
    · exact hpasses
    · exact hblit

/-- `Flush` writes what waits. -/
theorem flushes_flush (c : D3D11Context) : Flushes c c.flush :=
  flushes_ite (flushes_refl c) (flushes_ite
    (((flushes_flushAllPendingBufferUpdates c).trans
      (still_invalidateCurrentPass _ true).flushes).trans (still_commit _).flushes)
    (flushes_refl c))

theorem flushes_iterate_flush (m : Nat) (c : D3D11Context) :
    Flushes c (Nat.iterate flush m c) := by
  induction m generalizing c with
  | zero => exact flushes_refl c
  | succ m ih => exact (flushes_flush c).trans (ih c.flush)

theorem still_emitOP (c : D3D11Context) (op : EncoderOp) : Still c (c.emitOP op [] []) :=
  ⟨silent_emitOP c op, .of_eq rfl rfl rfl⟩

theorem flushes_optional {f : Nat → D3D11Context} (hf : ∀ buffer, Flushes c (f buffer))
    (buffer : Option Nat) :
    Flushes c (match buffer with
      | none => c
      | some buffer => f buffer) := by
  cases buffer with
  | none => exact flushes_refl c
  | some buffer => exact hf buffer

/-- The buffer of a map is flushed, but in a deferred context. -/
theorem InCall.map (h : InCall updates n c) {buffer : Option Nat} {kind : MapKind}
    (hmeets : c.UpdatesMeet (.map buffer kind)) : InCall updates n (c.map buffer kind) := by
  have hsrvs : ∀ c, Silent c (allStages.foldl setSRVsDirty c) :=
    silent_foldl (f := setSRVsDirty) (fun _ _ => .of_eq rfl rfl rfl) _
  have hconstants : ∀ c, Silent c (allStages.foldl setConstantBuffersDirty c) :=
    silent_foldl (f := setConstantBuffersDirty) (fun _ _ => .of_eq rfl rfl rfl) _
  have hcall := (flushes_optional (fun buffer => flushes_ite (p := c.deferred) (flushes_refl c)
    (flushes_flushPendingBufferUpdatesFor c buffer)) buffer).inCall updates n h
  cases kind with
  | discardBuffer vertexBuffer constantBuffer shaderResource =>
    have hdirty : ∀ c : D3D11Context, Silent c
        (let c := if vertexBuffer then c.setVertexBuffersDirty else c
        let c := if constantBuffer then allStages.foldl setConstantBuffersDirty c else c
        if shaderResource then allStages.foldl setSRVsDirty c else c) := fun c =>
      ((silent_ite (still_setVertexBuffersDirty c).toSilent (.refl c)).trans
        (silent_ite (hconstants _) (.refl _))).trans (silent_ite (hsrvs _) (.refl _))
    refine (hcall.silent (hdirty _)).emit rfl rfl rfl rfl fun b hmem => (hdirty _).not_pending ?_
    have hb : buffer = some b := Option.mem_toList.mp hmem
    cases hb
    dsimp only
    split
    · next hdeferred => exact hmeets hdeferred b rfl
    · exact not_pending_flushPendingBufferUpdatesFor c b
  | discardTexture => exact (hcall.silent (hsrvs _)).silent (silent_emitST _ .other)
  | noOverwrite => exact hcall
  | staging flushes => exact (flushes_iterate_flush flushes _).inCall updates n hcall

/-- `Begin` writes what waits. -/
theorem flushes_beginQuery (c : D3D11Context) (kind : QueryKind) :
    Flushes c (c.beginQuery kind) := by
  have hflush := flushes_ite (p := c.deferred) (flushes_refl c)
    (flushes_flushAllPendingBufferUpdates c)
  cases kind with
  | event => exact hflush
  | timestamp => exact hflush
  | occlusion => exact hflush.trans (still_emitST _ .other).flushes
  | counter samples => exact hflush.trans (still_emitOP _ (counterOp samples)).flushes

/-- `End` writes what waits, where it flushes at all. -/
theorem flushes_endQuery (c : D3D11Context) (kind : QueryKind) : Flushes c (c.endQuery kind) := by
  cases kind with
  | event =>
    refine flushes_ite (still_state c _ _ true _).flushes (flushes_ite ?_ (flushes_refl c))
    exact (flushes_flushAllPendingBufferUpdates c).trans
      (((still_invalidateCurrentPass _ true).trans (still_emitOP _ .passes)).trans
        (still_state _ _ _ true false)).flushes
  | timestamp =>
    refine flushes_ite (still_state c _ _ true _).flushes ?_
    exact (((still_invalidateCurrentPass c true).trans (still_emitOP _ .passes)).trans
      (still_state _ _ _ true _)).flushes
  | occlusion => exact ((still_emitST c .other).trans (still_state _ _ _ true _)).flushes
  | counter samples =>
    exact ((still_emitOP c (counterOp samples)).trans (still_state _ _ _ true _)).flushes

/-! ## Command lists -/

/-- Nothing is queued after `ResetEncodingContextState`. -/
theorem pending_resetEncodingContextState (c : D3D11Context) :
    c.resetEncodingContextState.pendingBufferUpdates = [] :=
  (pending_invalidateCurrentPass c.flushAllPendingBufferUpdates true).trans
    (pending_flushAllPendingBufferUpdates c)

theorem flushes_resetEncodingContextState (c : D3D11Context) :
    Flushes c c.resetEncodingContextState :=
  (flushes_flushAllPendingBufferUpdates c).trans
    ((still_invalidateCurrentPass _ true).trans (still_emitST _ .clearState)).flushes

/-- `End` adds no waiting update. -/
theorem pending_endQuery (h : c.pendingBufferUpdates = []) (kind : QueryKind) :
    (c.endQuery kind).pendingBufferUpdates = [] := by
  cases kind with
  | event =>
    unfold endQuery
    dsimp only
    split
    · exact h
    · split
      · exact (pending_invalidateCurrentPass _ true).trans (pending_flushAllPendingBufferUpdates c)
      · exact h
  | timestamp =>
    unfold endQuery
    dsimp only
    split
    · exact h
    · exact (pending_invalidateCurrentPass c true).trans h
  | occlusion => exact h
  | counter => exact h

theorem pending_foldl_endQuery (h : c.pendingBufferUpdates = []) (queries : List QueryKind) :
    (queries.foldl endQuery c).pendingBufferUpdates = [] := by
  induction queries generalizing c with
  | nil => exact h
  | cons kind queries ih => exact ih (pending_endQuery h kind)

theorem silent_restoreUAVs (c : D3D11Context) (compute : Bool) (set : BindingSet D3D11View) :
    Silent c (c.restoreUAVs compute set) := by
  refine silent_foldl (fun c slot => ?_) _ c
  split
  · exact .refl c
  · exact silent_emitST c _

/-- What a command list leaves behind touches no buffer. -/
theorem silent_restore (c : D3D11Context) (restore : Bool) :
    Silent c (if restore then c.restoreEncodingContextState else c.resetD3D11ContextState) :=
  silent_ite ((silent_restoreUAVs c false _).trans (silent_restoreUAVs _ true _))
    (.of_eq rfl rfl rfl)

/-- A command list comes after everything that waits. -/
theorem InCall.executeCommandList (h : InCall updates n c) (queries : List QueryKind)
    (reads writes : List Nat) (promote restore : Bool) :
    InCall updates n (c.executeCommandList queries reads writes promote restore) := by
  have hreset : Flushes c { c.resetEncodingContextState with promoteFlush := promote } :=
    (flushes_resetEncodingContextState c).trans (still_state _ _ _ promote _).flushes
  have hqueries := (hreset.trans (flushes_foldl flushes_endQuery queries _)).inCall updates n h
  have hpending := pending_foldl_endQuery
    (c := { c.resetEncodingContextState with promoteFlush := promote })
    (pending_resetEncodingContextState c) queries
  unfold D3D11Context.executeCommandList
  split
  · exact h
  · refine (hqueries.emitOP .commandList fun b _ => ?_).silent (silent_restore _ restore)
    unfold hasPendingBufferUpdateFor
    rw [hpending]
    rfl

/-- A list that is finished has written what waits. -/
theorem InCall.finishCommandList (h : InCall updates n c) (restore : Bool) :
    InCall updates n (c.finishCommandList restore) := by
  have hreset := ((flushes_flushAllPendingBufferUpdates c).trans
    (flushes_resetEncodingContextState _)).inCall updates n h
  unfold D3D11Context.finishCommandList
  split
  · exact hreset.silent
      ((still_state _ _ _ false _).toSilent.trans (silent_restore _ restore))
  · exact h

/-! ## Runs -/

/-- A call that queues no update keeps the order. -/
theorem InCall.exec (h : InCall updates n c) {call : Call} (hmeets : c.UpdatesMeet call)
    (hqueued : c.queued call = []) : InCall updates n (c.exec call) := by
  have hflush := flushes_flushAllPendingBufferUpdates c
  have hpass := fun (c : D3D11Context) (deferCommit : Bool) =>
    still_invalidateCurrentPass c deferCommit
  cases call with
  | setShader stage shader => exact h.silent (silent_setShader c stage shader)
  | setConstantBuffer _ _ _ => exact h.congr rfl rfl rfl
  | setShaderResource stage start views =>
    exact h.silent (silent_setShaderResource c stage start views)
  | setSamplers _ _ _ => exact h.congr rfl rfl rfl
  | csSetUnorderedAccessViews start views =>
    exact h.silent (silent_csSetUnorderedAccessViews c start views)
  | omSet rtvs dsv start uavs => exact h.silent (silent_omSet c rtvs dsv start uavs)
  | setVertexBuffers _ _ => exact h.congr rfl rfl rfl
  | setIndexBuffer _ _ _ => exact h.congr rfl rfl rfl
  | soSetTargets _ => exact h.congr rfl rfl rfl
  | setPipelineState => exact h.silent (still_invalidateRenderPipeline c).toSilent
  | draw d => exact h.draw hmeets
  | drawAuto => exact h.silent (silent_emitST c .other)
  | dispatch d => exact h.dispatch hmeets
  | clearRenderTargetView buffer => exact h.clearRenderTargetView buffer
  | clearDepthStencilView =>
      exact h.silent ((hpass c false).toSilent.trans (silent_emitOP _ .passes))
  | clearUnorderedAccessView buffer => exact h.clearUnorderedAccessView buffer
  | clearViewRects buffer =>
    exact h.emitAfter (hpass c true).toSilent .passes fun b hmem =>
      hmeets b (Option.mem_toList.mp hmem)
  | generateMips =>
    exact h.silent ((still_switchToBlitEncoder c .blit).toSilent.trans (silent_emitOP _ .blit))
  | resolveSubresource => exact h.silent ((hpass c false).toSilent.trans (silent_emitOP _ .passes))
  | copyBuffer dst src stagingDst stagingSrc empty =>
    exact h.copyBuffer dst src stagingDst stagingSrc empty
  | copyTexture dst src emulatedDepthStencil => exact h.copyTexture hmeets
  | copyStructureCount dst =>
    refine h.emitAfter (still_switchToBlitEncoder c .blit).toSilent .blit fun b hmem => ?_
    cases List.mem_singleton.mp hmem
    exact hmeets
  | updateSubresource dst => cases hqueued
  | updateTexture src =>
    refine (hflush.inCall updates n h).emitAfter
      (still_switchToBlitEncoder _ .update).toSilent .blit fun b _ => ?_
    unfold hasPendingBufferUpdateFor
    rw [pending_flushAllPendingBufferUpdates]
    rfl
  | map buffer kind => exact h.map hmeets
  | temporalUpscale => exact h.silent ((hpass c false).toSilent.trans (silent_emitOP _ .passes))
  | beginQuery kind => exact (flushes_beginQuery c kind).inCall updates n h
  | endQuery kind => exact (flushes_endQuery c kind).inCall updates n h
  | flush => exact (flushes_flush c).inCall updates n h
  | executeCommandList queries reads writes promote restore =>
    exact h.executeCommandList queries reads writes promote restore
  | finishCommandList restore => exact h.finishCommandList restore
  | clearState => exact ((flushes_resetEncodingContextState c).inCall updates n h).congr rfl rfl rfl
  | prepareFlush =>
    exact (flushes_ite (flushes_refl c) (hflush.trans (hpass _ true).flushes)).inCall updates n h
  | waitUntilGPUIdle =>
    have hidle := hflush.trans (hpass _ false).flushes
    exact (flushes_ite (flushes_refl c) (flushes_ite hidle
      (hidle.trans (still_commit _).flushes))).inCall updates n h
  | signal =>
    exact (flushes_ite (flushes_refl c) ((hflush.trans
      ((hpass _ false).trans (still_emitOP _ .passes)).flushes).trans
        (flushes_flush _))).inCall updates n h
  | wait =>
    exact (flushes_ite (flushes_refl c) ((hflush.trans (flushes_flush _)).trans
      (still_emitOP _ .passes).flushes)).inCall updates n h

/-- The invariant between two calls. -/
structure Settled (updates : List PendingBufferUpdate) (c : D3D11Context) : Prop
    extends ProgramOrder c updates where
  bounded : ∀ access ∈ c.accesses, ∀ m ∈ access.calls, m < c.call
  fresh : ∀ update ∈ updates, update.call < c.call

theorem Settled.inCall (h : Settled updates c) : InCall updates c.call c :=
  ⟨h.toProgramOrder, rfl, fun access hmem m hm => Nat.le_of_lt (h.bounded access hmem m hm),
    h.fresh⟩

/-- An update that is queued later is in no command. -/
theorem Settled.applied_append (h : Settled updates c) (dst buffer : Nat) :
    c.applied (updates ++ [⟨dst, c.call⟩]) buffer = c.applied updates buffer := by
  unfold applied
  refine List.flatMap_congr fun command hcommand => ?_
  split
  · refine List.filter_congr fun m hm => ?_
    have hlt := h.bounded command.access
      (List.mem_append_left _ (List.mem_map_of_mem hcommand)) m hm
    have hne : (⟨buffer, m⟩ : PendingBufferUpdate) ≠ ⟨dst, c.call⟩ := by
      intro heq
      cases heq
      exact Nat.lt_irrefl _ hlt
    simp [hne]
  · rfl

/-- An update that waits is in order behind the others. -/
theorem Settled.updateSubresource (h : Settled updates c) (dst : Nat) :
    Settled (updates ++ [⟨dst, c.call⟩]) { c.updateSubresource dst with call := c.call + 1 } := by
  have haccesses : D3D11Context.accesses { c.updateSubresource dst with call := c.call + 1 } =
      c.accesses ++ [⟨[c.call], [], [dst]⟩] := by
    unfold accesses D3D11Context.updateSubresource
    rw [List.map_append, List.append_assoc]
    rfl
  refine ⟨⟨?_, fun buffer => ?_⟩, ?_, ?_⟩
  · rw [haccesses]
    refine List.pairwise_append.mpr ⟨h.ordered, List.pairwise_singleton .., ?_⟩
    intro access hmem access' hmem' _ m hm k hk
    cases List.mem_singleton.mp hmem'
    cases List.mem_singleton.mp hk
    exact Nat.le_of_lt (h.bounded access hmem m hm)
  · have hpending : D3D11Context.pendingFor { c.updateSubresource dst with call := c.call + 1 }
        buffer = c.pendingFor buffer ++ [⟨dst, c.call⟩].filter fun update => update.dst = buffer :=
      List.filter_append ..
    rw [hpending, List.filter_append, List.map_append, List.map_append, ← h.complete buffer,
      List.append_assoc]
    exact congrArg (· ++ _) (h.applied_append dst buffer)
  · rw [haccesses]
    intro access hmem m hm
    rcases List.mem_append.mp hmem with hmem | hmem
    · exact Nat.lt_succ_of_lt (h.bounded access hmem m hm)
    · cases List.mem_singleton.mp hmem
      cases List.mem_singleton.mp hm
      exact Nat.lt_succ_self _
  · intro update hmem
    rcases List.mem_append.mp hmem with hmem | hmem
    · exact Nat.lt_succ_of_lt (h.fresh update hmem)
    · cases List.mem_singleton.mp hmem
      exact Nat.lt_succ_self _

/-- A call that meets the condition keeps the order of updates and accesses. -/
theorem Settled.step (h : Settled updates c) {call : Call} (hmeets : c.UpdatesMeet call) :
    Settled (updates ++ c.queued call) (c.step call) := by
  by_cases hqueued : c.queued call = []
  · have hexec := h.inCall.exec hmeets hqueued
    rw [hqueued, List.append_nil]
    exact ⟨⟨hexec.ordered, hexec.complete⟩,
      fun access hmem m hm => Nat.lt_succ_of_le (hexec.bounded access hmem m hm),
      fun update hmem => Nat.lt_succ_of_lt (hexec.fresh update hmem)⟩
  · cases call with
    | updateSubresource dst => exact h.updateSubresource dst
    | _ => exact absurd rfl hqueued

/-- **Program order.** In a run whose calls meet the condition, the commands and then the queue are
in the order of the calls, and every update that was queued is in one of them. -/
theorem updates_in_order (run : UpdateRun c updates) : c.ProgramOrder updates := by
  have hsettled : Settled updates c := by
    induction run with
    | init deferred =>
      exact ⟨⟨List.Pairwise.nil, fun _ => rfl⟩, (fun _ h => nomatch h), fun _ h => nomatch h⟩
    | step _ _ meets ih => exact ih.step meets
  exact hsettled.toProgramOrder

/-- A compute shader that reads a constant buffer, and the buffer. -/
def readerCalls : List Call :=
  [.setShader .compute (some { id := 1, constantBuffers := [1] }),
    .setConstantBuffer .compute 1 [(some (⟨2, {}, .buffer 512 (by decide) (by decide)⟩, 512),
      none, none)]]

/-- The buffer has an update that a copy from it flushes. -/
def copiedCalls : List Call :=
  readerCalls ++ [.updateSubresource 2, .copyBuffer 3 2 false false false]

/-- After the copy the dispatch finds no update of what it reads. -/
theorem updates_in_order_copy :
    ((copiedCalls.foldl step (init false)).step (.dispatch {})).ProgramOrder [⟨2, 2⟩] := by
  have run : UpdateRun (copiedCalls.foldl step (init false)) [⟨2, 2⟩] :=
    ((((UpdateRun.init false).step (.setShader .compute
      (some { id := 1, constantBuffers := [1] })) trivial).step
        (.setConstantBuffer .compute 1 [(some (⟨2, {}, .buffer 512 (by decide) (by decide)⟩, 512),
          none, none)]) trivial).step
          (.updateSubresource 2) trivial).step (.copyBuffer 3 2 false false false) trivial
  refine updates_in_order (run.step (.dispatch {}) fun _ buffer _ hpending => ?_)
  have hnone : (copiedCalls.foldl step (init false)).pendingBufferUpdates = [] := by
    decide
  unfold hasPendingBufferUpdateFor at hpending
  rw [hnone] at hpending
  cases hpending

/-- The update of a constant buffer is still queued when a dispatch reads it. -/
theorem constant_buffer_stale : ∃ calls : List Call,
    ¬ (calls.foldl step (init false)).accesses.Pairwise BufferAccess.Ordered :=
  ⟨readerCalls ++ [.updateSubresource 2, .dispatch {}], by decide⟩

end D3D11Context

end Dxmt
