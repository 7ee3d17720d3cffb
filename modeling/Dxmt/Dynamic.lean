import Dxmt.ListSlots
import Mathlib.Data.List.Induction
import Mathlib.Logic.Function.Basic

/-!
# Dynamic resources: `DynamicBuffer`, `DynamicLinearTexture`

A dynamic buffer or linear texture is renamed by every `WRITE_DISCARD` map: the next suballocation
of its allocation, or another allocation from a queue of free ones. On a deferred context the map
takes an allocation into the command list, which owns it until it is reset; executing the list makes
its latest allocation the name of the resource.

One state is one resource with the command lists that use it, the sequence ids, and what the
encoding thread makes of the commands: `encoded` is the current allocation of the `Buffer` or
`Texture`, with the suballocation of every allocation, and `uses` are the reads of the submitted
work. A buffer has `suballocationCount` suballocations and records `latest` in its command list; a
linear texture has one and records `false`.

Two things go wrong. Executing a command list again sets the suballocation of its allocation back,
so that the next map hands out one that is still being read (`discard_overwrites`). And the name of
a linear texture does not follow the command list, so that a reset frees the allocation that the
texture still has (`texture_recycled`).

Results: `Inv.step` is the invariant of the runs without the two, `renaming_safe` the statement.

Source: `dxmt_dynamic.cpp:21-130`, `d3d11_context_imm.cpp:124-139, 558-615`,
`d3d11_context_def.cpp:114-235`.
-/

namespace Dxmt

/-- `used_dynamic_buffer` and `used_dynamic_lineartexture`. -/
structure UsedDynamic where
  allocation : Nat
  suballocation : Nat
  latest : Bool
deriving DecidableEq

/-- The commands on the resource. -/
inductive DynamicCommand where
  /-- `useSuballocation(0)`, then `rename`. -/
  | rename (allocation : Nat)
  | useSuballocation (allocation suballocation : Nat)
  /-- A draw or a dispatch that reads the resource. -/
  | read
deriving DecidableEq

/-- `DynamicBufferAllocation`. -/
structure DynamicBufferAllocation where
  allocation : Nat
  allocationId : Nat
  suballocation : Nat
deriving DecidableEq

/-- `MTLD3D11CommandList`, with the current allocation of the deferred context that records it. -/
structure DynamicCommandList where
  used : List UsedDynamic := []
  commands : List DynamicCommand := []
  current : Option DynamicBufferAllocation := none
  recording : Bool := true
deriving DecidableEq

namespace DynamicCommandList

/-- The list after a `WRITE_DISCARD` map that takes the next suballocation. -/
def suballocate (l : DynamicCommandList) (c : DynamicBufferAllocation) :
    DynamicCommandList :=
  { l with
    used := l.used.modify c.allocationId fun u => { u with suballocation := c.suballocation + 1 }
    commands := l.commands ++ [.useSuballocation c.allocation (c.suballocation + 1)]
    current := some { c with suballocation := c.suballocation + 1 } }

/-- The list after a `WRITE_DISCARD` map that takes another allocation. -/
def take (l : DynamicCommandList) (allocation : Nat) (latest : Bool) :
    DynamicCommandList :=
  { l with
    used := (match l.current with
      | none => l.used
      | some c => l.used.modify c.allocationId fun u => { u with latest := false }) ++
        [⟨allocation, 0, latest⟩]
    commands := l.commands ++ [.rename allocation]
    current := some ⟨allocation, l.used.length, 0⟩ }

end DynamicCommandList

/-- What the encoding thread knows of the resource. -/
structure EncodedDynamic where
  current : Nat
  suballocation : Nat → Nat

/-- A read of submitted work. -/
structure DynamicUse where
  allocation : Nat
  suballocation : Nat
  seqId : Nat
deriving DecidableEq

/-- `DynamicBuffer` or `DynamicLinearTexture`. -/
structure Dynamic where
  suballocationCount : Nat
  recordsLatest : Bool
  name : Nat := 0
  nameSuballocation : Nat := 0
  ownedByCommandList : Bool := false
  /-- `fifo`: the allocation and `will_free_at`. -/
  fifo : List (Nat × Nat) := []
  /-- The number of allocations made. -/
  poolSize : Nat := 1
  lists : List DynamicCommandList := []
  currentSeqId : Nat := 1
  coherentSeqId : Nat := 0
  encoded : EncodedDynamic := ⟨0, fun _ => 0⟩
  uses : List DynamicUse := []

namespace Dynamic

/-- The allocation has the suballocation. -/
def hasSuballocation (s : Dynamic) (suballocation : Nat) : Bool :=
  decide (suballocation < s.suballocationCount)

/-- `allocate`: the oldest free allocation, else a new one. -/
def allocate (s : Dynamic) (coherentSeqId : Nat) : Nat × Dynamic :=
  match s.fifo with
  | [] => (s.poolSize, { s with poolSize := s.poolSize + 1 })
  | entry :: rest =>
    if entry.2 > coherentSeqId then (s.poolSize, { s with poolSize := s.poolSize + 1 })
    else (entry.1, { s with fifo := rest })

/-- `updateImmediateName`: the old name waits until its sequence is done. -/
def updateImmediateName (s : Dynamic) (currentSeqId allocation suballocation : Nat)
    (ownedByCommandList : Bool) : Dynamic :=
  { s with
    fifo := if s.ownedByCommandList then s.fifo else s.fifo ++ [(s.name, currentSeqId)]
    name := allocation
    nameSuballocation := suballocation
    ownedByCommandList := ownedByCommandList }

/-- `recycle`: a name that comes back from a list. -/
def recycle (s : Dynamic) (currentSeqId allocation : Nat) : Dynamic :=
  if s.ownedByCommandList ∧ s.name = allocation then
    { s with ownedByCommandList := false }
  else
    { s with fifo := s.fifo ++ [(allocation, currentSeqId)] }

/-- `nextSuballocation`, zero if there is none. -/
def nextSuballocation (s : Dynamic) : Nat × Dynamic :=
  if s.hasSuballocation (s.nameSuballocation + 1) then
    (s.nameSuballocation + 1, { s with nameSuballocation := s.nameSuballocation + 1 })
  else
    (0, s)

/-- The encoding thread runs a command of the current chunk. -/
def encode (s : Dynamic) : DynamicCommand → Dynamic
  | .rename a => { s with encoded := ⟨a, Function.update s.encoded.suballocation a 0⟩ }
  | .useSuballocation a n =>
    { s with
      encoded := { s.encoded with suballocation := Function.update s.encoded.suballocation a n } }
  | .read =>
    { s with
      uses := ⟨s.encoded.current, s.encoded.suballocation s.encoded.current, s.currentSeqId⟩ ::
        s.uses }

/-- A `WRITE_DISCARD` map on the immediate context: the memory that it returns. -/
def mapDiscard (s : Dynamic) : (Nat × Nat) × Dynamic :=
  let (next, s) := s.nextSuballocation
  if next ≠ 0 then
    ((s.name, s.nameSuballocation), s.encode (.useSuballocation s.name next))
  else
    let (allocation, s') := s.allocate s.coherentSeqId
    let s := (s'.updateImmediateName s.currentSeqId allocation 0 false).encode (.rename allocation)
    ((s.name, s.nameSuballocation), s)

/-- Changes one list. -/
def setList (s : Dynamic) (i : Nat) (l : DynamicCommandList) : Dynamic :=
  { s with lists := s.lists.set i l }

/-- The map takes another allocation into the list. -/
def takeDeferred (s : Dynamic) (i : Nat) (l : DynamicCommandList) : (Nat × Nat) × Dynamic :=
  let (allocation, s') := s.allocate s.coherentSeqId
  ((allocation, 0), s'.setList i (l.take allocation s.recordsLatest))

/-- A `WRITE_DISCARD` map on the deferred context that records the `i`th list. -/
def mapDeferred (s : Dynamic) (i : Nat) : Option ((Nat × Nat) × Dynamic) :=
  match s.lists[i]? with
  | none => none
  | some l =>
    if l.recording = false then none
    else
      match l.current with
      | none => some (s.takeDeferred i l)
      | some c =>
        if s.hasSuballocation (c.suballocation + 1) then
          some ((c.allocation, c.suballocation + 1), s.setList i (l.suballocate c))
        else some (s.takeDeferred i l)

/-- `ExecuteCommandList`: the names, then the commands. -/
def execute (s : Dynamic) (l : DynamicCommandList) : Dynamic :=
  let s := l.used.foldl (fun s u =>
    if u.latest then s.updateImmediateName s.currentSeqId u.allocation u.suballocation true
    else s) s
  l.commands.foldl encode s

/-- `MTLD3D11CommandList::Reset`, from the last allocation of the list to the first one. `recycle`
does not look at the lists, so the list may be emptied first. -/
def reset (s : Dynamic) (i : Nat) (l : DynamicCommandList) : Dynamic :=
  l.used.reverse.foldl (fun s u => s.recycle s.currentSeqId u.allocation) (s.setList i {})

/-! ## Runs -/

/-- What an application, the lists and the GPU can do next. -/
inductive Event where
  | discard
  | read
  /-- A new deferred context, or a new list of one. -/
  | newList
  | discardDeferred (i : Nat)
  | readDeferred (i : Nat)
  | finish (i : Nat)
  | execute (i : Nat)
  | reset (i : Nat)
  | commit
  | advance (seqId : Nat)
deriving DecidableEq

/-- A step, if it can happen. `NO_OVERWRITE` maps change nothing. -/
def step (s : Dynamic) : Event → Option Dynamic
  | .discard => some s.mapDiscard.2
  | .read => some (s.encode .read)
  | .newList => some { s with lists := s.lists ++ [{}] }
  | .discardDeferred i => (s.mapDeferred i).map Prod.snd
  | .readDeferred i =>
    match s.lists[i]? with
    | none => none
    | some l =>
      if l.recording then some (s.setList i { l with commands := l.commands ++ [.read] }) else none
  | .finish i =>
    match s.lists[i]? with
    | none => none
    | some l =>
      if l.recording then some (s.setList i { l with current := none, recording := false })
      else none
  | .execute i =>
    match s.lists[i]? with
    | none => none
    | some l => if l.recording then none else some (s.execute l)
  | .reset i =>
    match s.lists[i]? with
    | none => none
    | some l => some (s.reset i l)
  | .commit => some { s with currentSeqId := s.currentSeqId + 1 }
  | .advance seqId =>
    if s.coherentSeqId ≤ seqId ∧ seqId < s.currentSeqId then some { s with coherentSeqId := seqId }
    else none

/-! ## The statement -/

end Dynamic

/-- What the commands of a list read, as far as the list decides it. -/
structure Resolved where
  /-- The allocation and the suballocation, once the list renamed the resource. -/
  current : Option (Nat × Nat) := none
  reads : List (Nat × Nat) := []
  /-- There is a read before the first rename. -/
  leads : Bool := false
  /-- The suballocation is changed in the current allocation only. -/
  ok : Bool := true

/-- The next command. -/
def Resolved.next (r : Resolved) : DynamicCommand → Resolved
  | .rename a => { r with current := some (a, 0) }
  | .useSuballocation a n =>
    { r with current := some (a, n), ok := r.ok && decide (r.current.map Prod.fst = some a) }
  | .read =>
    match r.current with
    | none => { r with leads := true }
    | some p => { r with reads := p :: r.reads }

/-- The allocations that a list owns. -/
def DynamicCommandList.allocations (l : DynamicCommandList) : List Nat :=
  l.used.map UsedDynamic.allocation

/-- All commands of a list. -/
def DynamicCommandList.resolved (l : DynamicCommandList) : Resolved :=
  l.commands.foldl Resolved.next {}

namespace Dynamic

/-- Submitted work that may still run does not read the memory, and no recorded list will. -/
def Unread (s : Dynamic) (p : Nat × Nat) : Prop :=
  (∀ u ∈ s.uses, u.allocation = p.1 → u.suballocation = p.2 → u.seqId ≤ s.coherentSeqId) ∧
    ∀ l ∈ s.lists, p ∉ l.resolved.reads

/-- The number of owners of an allocation. -/
def owners (s : Dynamic) (a : Nat) : Nat :=
  (if s.ownedByCommandList then 0 else [s.name].count a) + (s.fifo.map Prod.fst).count a +
    (s.lists.flatMap DynamicCommandList.allocations).count a

/-- The three parts of the statement: what the maps return, the free list, the owners. -/
structure Safe (s : Dynamic) : Prop where
  discard : s.Unread s.mapDiscard.1
  discardDeferred : ∀ i r, s.mapDeferred i = some r → s.Unread r.1
  free : ∀ e ∈ s.fifo, e.1 ≠ s.name ∧ e.1 ≠ s.encoded.current
  owners : ∀ a, s.owners a ≤ 1

/-- The list sets no suballocation back that is still being read, or that it reads itself first. -/
def SetsForward (s : Dynamic) (l : DynamicCommandList) : Prop :=
  ∀ e ∈ l.used, e.latest = true →
    (∀ u ∈ s.uses, u.allocation = e.allocation → e.suballocation < u.suballocation →
      u.seqId ≤ s.coherentSeqId) ∧
    (l.resolved.leads = true → s.encoded.current = e.allocation →
      s.encoded.suballocation e.allocation ≤ e.suballocation)

instance (s : Dynamic) (l : DynamicCommandList) : Decidable (s.SetsForward l) :=
  inferInstanceAs (Decidable (∀ e ∈ l.used, _ → _))

/-- The list does not own the allocation that the resource has under another name. -/
def Releasable (s : Dynamic) (l : DynamicCommandList) : Prop :=
  s.encoded.current ∈ l.allocations → s.encoded.current = s.name

/-- The condition on a step. -/
def Meets (s : Dynamic) : Event → Prop
  | .execute i => ∀ l, s.lists[i]? = some l → s.SetsForward l
  | .reset i => ∀ l, s.lists[i]? = some l → s.Releasable l
  | _ => True

/-- A run whose steps meet the condition. -/
inductive Renames : Dynamic → Dynamic → Prop where
  | refl (s : Dynamic) : Renames s s
  | tail {s t t' : Dynamic} (e : Event) (run : Renames s t) (meets : t.Meets e)
      (step : t.step e = some t') : Renames s t'

/-- A new resource. -/
def init (suballocationCount : Nat) (recordsLatest : Bool) : Dynamic :=
  { suballocationCount := suballocationCount, recordsLatest := recordsLatest }

/-! ## What the commands of a list do -/

/-- The state after the commands of a list, beside what the list resolves to. -/
structure Encodes (s s' : Dynamic) (r : Resolved) : Prop where
  rest : s' = { s with encoded := s'.encoded, uses := s'.uses }
  renamed : ∀ a n, r.current = some (a, n) →
    s'.encoded.current = a ∧ s'.encoded.suballocation a = n
  same : r.current = none → s'.encoded = s.encoded
  uses : ∀ u ∈ s'.uses, u ∈ s.uses ∨ u.seqId = s.currentSeqId ∧
    ((u.allocation, u.suballocation) ∈ r.reads ∨
      r.leads = true ∧ u.allocation = s.encoded.current ∧
        u.suballocation = s.encoded.suballocation s.encoded.current)

variable {s t : Dynamic} {l : DynamicCommandList} {i : Nat}

theorem Encodes.encode {r : Resolved} (h : Encodes s t r) (c : DynamicCommand)
    (hok : (r.next c).ok = true) : Encodes s (t.encode c) (r.next c) := by
  cases c with
  | rename a =>
    refine ⟨?_, fun b n he => ?_, nofun, h.uses⟩
    · rw [h.rest]
      rfl
    · cases he
      exact ⟨rfl, Function.update_self ..⟩
  | useSuballocation a n =>
    refine ⟨?_, fun b m he => ?_, nofun, h.uses⟩
    · rw [h.rest]
      rfl
    · cases he
      simp only [Resolved.next, Bool.and_eq_true, decide_eq_true_eq, Option.map_eq_some_iff] at hok
      obtain ⟨-, p, hp, rfl⟩ := hok
      exact ⟨(h.renamed _ _ hp).1, Function.update_self ..⟩
  | read =>
    cases hc : r.current with
    | none =>
      have hr : r.next .read = { r with leads := true } := by
        simp only [Resolved.next, hc]
      rw [hr]
      refine ⟨?_, fun b m he => ?_, h.same, fun u hu => ?_⟩
      · rw [h.rest]
        rfl
      · rw [hc] at he
        cases he
      · rcases List.mem_cons.mp hu with rfl | hu
        · rw [h.same hc]
          exact Or.inr ⟨by rw [h.rest], Or.inr ⟨rfl, rfl, rfl⟩⟩
        · rcases h.uses u hu with hu | ⟨hseq, hread | ⟨-, hlead⟩⟩
          · exact Or.inl hu
          · exact Or.inr ⟨hseq, Or.inl hread⟩
          · exact Or.inr ⟨hseq, Or.inr ⟨rfl, hlead⟩⟩
    | some p =>
      have hr : r.next .read = { r with reads := p :: r.reads } := by
        simp only [Resolved.next, hc]
      obtain ⟨hcur, hsub⟩ := h.renamed p.1 p.2 hc
      rw [hr]
      refine ⟨?_, fun b m he => h.renamed b m he, fun he => ?_, fun u hu => ?_⟩
      · rw [h.rest]
        rfl
      · rw [hc] at he
        cases he
      · rcases List.mem_cons.mp hu with rfl | hu
        · refine Or.inr ⟨by rw [h.rest], Or.inl (List.mem_cons.mpr (Or.inl ?_))⟩
          rw [hcur, hsub]
        · rcases h.uses u hu with hu | ⟨hseq, hread | hlead⟩
          · exact Or.inl hu
          · exact Or.inr ⟨hseq, Or.inl (List.mem_cons_of_mem _ hread)⟩
          · exact Or.inr ⟨hseq, Or.inr hlead⟩

theorem next_ok {r : Resolved} {c : DynamicCommand} (h : (r.next c).ok = true) : r.ok = true := by
  cases c with
  | rename a => exact h
  | useSuballocation a n => exact (Bool.and_eq_true_iff.mp h).1
  | read =>
    cases hc : r.current with
    | none =>
      simp only [Resolved.next, hc] at h
      exact h
    | some p =>
      simp only [Resolved.next, hc] at h
      exact h

/-- Executing the commands of a list: only what it resolves to is read. -/
theorem encodes_foldl (s : Dynamic) (cs : List DynamicCommand)
    (hok : (cs.foldl Resolved.next {}).ok = true) :
    Encodes s (cs.foldl Dynamic.encode s) (cs.foldl Resolved.next {}) := by
  induction cs using List.reverseRecOn with
  | nil => exact ⟨rfl, nofun, fun _ => rfl, fun u hu => Or.inl hu⟩
  | append_singleton cs c ih =>
    simp only [List.foldl_append, List.foldl_cons, List.foldl_nil] at hok ⊢
    exact (ih (next_ok hok)).encode c hok

/-! ## What a list holds -/

end Dynamic

namespace DynamicCommandList

variable {l : DynamicCommandList} {recordsLatest : Bool}

theorem resolved_append (l : DynamicCommandList) (c : DynamicCommand) :
    DynamicCommandList.resolved { l with commands := l.commands ++ [c] } = l.resolved.next c := by
  unfold resolved
  rw [List.foldl_append]
  rfl

/-- The list renamed the resource to the last allocation that it took. -/
structure Ends (recordsLatest : Bool) (l : DynamicCommandList) (earlier : List UsedDynamic)
    (a n : Nat) : Prop where
  used : l.used = earlier ++ [⟨a, n, recordsLatest⟩]
  replaced : ∀ u ∈ earlier, u.latest = false
  resolved : l.resolved.current = some (a, n)
  current : ∀ c, l.current = some c → c = ⟨a, earlier.length, n⟩

/-- What holds of the list of a deferred context. -/
structure Good (recordsLatest : Bool) (l : DynamicCommandList) : Prop where
  ok : l.resolved.ok = true
  reads : ∀ p ∈ l.resolved.reads, ∃ u ∈ l.used, u.allocation = p.1 ∧ p.2 ≤ u.suballocation
  ends : (l.used = [] ∧ l.resolved.current = none ∧ l.current = none) ∨
    ∃ earlier a n, l.Ends recordsLatest earlier a n
  recording : l.recording = true → l.current = none → l.used = []

theorem Good.empty : Good recordsLatest {} :=
  ⟨rfl, nofun, Or.inl ⟨rfl, rfl, rfl⟩, fun _ _ => rfl⟩

theorem Good.finish (h : l.Good recordsLatest) :
    Good recordsLatest { l with current := none, recording := false } := by
  refine ⟨h.ok, h.reads, ?_, nofun⟩
  rcases h.ends with ⟨hused, hres, -⟩ | ⟨earlier, a, n, he⟩
  · exact Or.inl ⟨hused, hres, rfl⟩
  · exact Or.inr ⟨earlier, a, n, he.used, he.replaced, he.resolved, nofun⟩

theorem Good.read (h : l.Good recordsLatest) :
    Good recordsLatest { l with commands := l.commands ++ [.read] } := by
  have hres := resolved_append l .read
  rcases h.ends with ⟨hused, hcur, hnone⟩ | ⟨earlier, a, n, he⟩
  · have hnext : l.resolved.next .read = { l.resolved with leads := true } := by
      simp only [Resolved.next, hcur]
    rw [hnext] at hres
    exact ⟨by rw [hres]; exact h.ok, by rw [hres]; exact h.reads,
      Or.inl ⟨hused, by rw [hres]; exact hcur, hnone⟩, h.recording⟩
  · have hnext : l.resolved.next .read = { l.resolved with reads :=
        (a, n) :: l.resolved.reads } := by
      simp only [Resolved.next, he.resolved]
    rw [hnext] at hres
    refine ⟨by rw [hres]; exact h.ok, ?_,
      Or.inr ⟨earlier, a, n, he.used, he.replaced, by rw [hres]; exact he.resolved, he.current⟩,
      h.recording⟩
    rw [hres]
    intro p hp
    rcases List.mem_cons.mp hp with rfl | hp
    · exact ⟨_, by rw [he.used]; exact List.mem_append_right _ (List.mem_singleton_self _), rfl,
        Nat.le_refl _⟩
    · exact h.reads p hp

theorem modify_last {earlier : List UsedDynamic} {u : UsedDynamic} (f : UsedDynamic → UsedDynamic) :
    (earlier ++ [u]).modify earlier.length f = earlier ++ [f u] := by
  induction earlier with
  | nil => rfl
  | cons v earlier ih => exact congrArg (v :: ·) ih

/-- The allocations of a list do not change with the suballocation. -/
theorem suballocate_used (h : l.Good recordsLatest) {c : DynamicBufferAllocation}
    (hc : l.current = some c) : ∃ earlier,
    l.Ends recordsLatest earlier c.allocation c.suballocation ∧
      (l.suballocate c).Ends recordsLatest earlier c.allocation (c.suballocation + 1) := by
  rcases h.ends with ⟨-, -, hnone⟩ | ⟨earlier, a, n, he⟩
  · rw [hnone] at hc
    cases hc
  · cases he.current c hc
    refine ⟨earlier, he, ?_, he.replaced, ?_, fun c hc => ?_⟩
    · show l.used.modify _ _ = _
      rw [he.used]
      exact modify_last _
    · exact congrArg Resolved.current (resolved_append l _)
    · cases hc
      rfl

theorem Good.suballocate (h : l.Good recordsLatest) {c : DynamicBufferAllocation}
    (hc : l.current = some c) : (l.suballocate c).Good recordsLatest := by
  obtain ⟨earlier, he, he'⟩ := suballocate_used h hc
  have hres : (l.suballocate c).resolved =
      l.resolved.next (.useSuballocation c.allocation (c.suballocation + 1)) := resolved_append l _
  refine ⟨?_, fun p hp => ?_, Or.inr ⟨earlier, _, _, he'⟩, fun _ => nofun⟩
  · rw [hres]
    simp [Resolved.next, h.ok, he.resolved]
  · rw [hres] at hp
    obtain ⟨u, hu, ha, hn⟩ := h.reads p hp
    rw [he.used] at hu
    rw [he'.used]
    rcases List.mem_append.mp hu with hu | hu
    · exact ⟨u, List.mem_append_left _ hu, ha, hn⟩
    · cases List.mem_singleton.mp hu
      exact ⟨_, List.mem_append_right _ (List.mem_singleton_self _), ha, Nat.le_succ_of_le hn⟩

/-- What a list used before stays, not latest any more. -/
theorem take_ends (h : l.Good recordsLatest) (hrec : l.recording = true) (a : Nat) :
    ∃ earlier, (l.take a recordsLatest).Ends recordsLatest earlier a 0 ∧
      earlier.map UsedDynamic.allocation = l.allocations ∧
      ∀ u ∈ l.used, ∃ v ∈ earlier, v.allocation = u.allocation ∧
        v.suballocation = u.suballocation := by
  have hres : (l.take a recordsLatest).resolved.current = some (a, 0) :=
    congrArg Resolved.current (resolved_append l (.rename a))
  cases hc : l.current with
  | none =>
    have hnil := h.recording hrec hc
    refine ⟨[], ⟨?_, nofun, hres, fun c he => ?_⟩, by rw [allocations, hnil], by rw [hnil]; nofun⟩
    · simp only [take, hc, hnil]
    · simp only [take, hnil] at he
      cases he
      rfl
  | some c =>
    rcases h.ends with ⟨-, -, hnone⟩ | ⟨earlier, b, n, he⟩
    · rw [hnone] at hc
      cases hc
    · cases he.current c hc
      refine ⟨earlier ++ [⟨b, n, false⟩], ⟨?_, fun u hu => ?_, hres, fun c hc => ?_⟩, ?_,
        fun u hu => ?_⟩
      · simp only [take, hc, he.used, modify_last]
      · rcases List.mem_append.mp hu with hu | hu
        · exact he.replaced u hu
        · cases List.mem_singleton.mp hu
          rfl
      · simp only [take, he.used] at hc
        cases hc
        simp
      · simp [allocations, he.used]
      · rw [he.used] at hu
        rcases List.mem_append.mp hu with hu | hu
        · exact ⟨u, List.mem_append_left _ hu, rfl, rfl⟩
        · cases List.mem_singleton.mp hu
          exact ⟨_, List.mem_append_right _ (List.mem_singleton_self _), rfl, rfl⟩

theorem Good.take (h : l.Good recordsLatest) (hrec : l.recording = true) (a : Nat) :
    (l.take a recordsLatest).Good recordsLatest := by
  obtain ⟨earlier, he, -, hkept⟩ := take_ends h hrec a
  have hres : (l.take a recordsLatest).resolved = l.resolved.next (.rename a) := resolved_append l _
  refine ⟨by rw [hres]; exact h.ok, fun p hp => ?_, Or.inr ⟨earlier, a, 0, he⟩, fun _ => nofun⟩
  rw [hres] at hp
  obtain ⟨u, hu, ha, hn⟩ := h.reads p hp
  obtain ⟨v, hv, hva, hvn⟩ := hkept u hu
  refine ⟨v, ?_, hva.trans ha, hvn ▸ hn⟩
  rw [he.used]
  exact List.mem_append_left _ hv

end DynamicCommandList

namespace Dynamic

variable {s t : Dynamic} {l : DynamicCommandList} {i : Nat}

/-! ## The invariant -/

/-- `pending` are the allocations on their way from one owner to another. -/
structure Inv (s : Dynamic) (pending : List Nat) : Prop where
  seq : s.coherentSeqId < s.currentSeqId
  owners : ∀ a, s.owners a + pending.count a = if a < s.poolSize then 1 else 0
  used : ∀ u ∈ s.uses, u.allocation < s.poolSize ∧ u.seqId ≤ s.currentSeqId
  fifo : ∀ e ∈ s.fifo, ∀ u ∈ s.uses, u.allocation = e.1 → u.seqId ≤ e.2
  encoded : s.encoded.current = s.name ∨ ∃ l ∈ s.lists, s.encoded.current ∈ l.allocations
  follows : s.encoded.current = s.name → s.encoded.suballocation s.name ≤ s.nameSuballocation
  owned : s.ownedByCommandList = true → s.recordsLatest = true ∧
    ((∃ l ∈ s.lists, s.name ∈ l.allocations) ∨ s.name ∈ pending)
  nameUses : ∀ u ∈ s.uses, u.allocation = s.name → s.nameSuballocation < u.suballocation →
    u.seqId ≤ s.coherentSeqId
  nameLists : ∀ l ∈ s.lists, ∀ p ∈ l.resolved.reads, p.1 = s.name → p.2 ≤ s.nameSuballocation
  recording : ∀ l ∈ s.lists, l.recording = true → ∀ a ∈ l.allocations, a ≠ s.name ∧
    a ≠ s.encoded.current ∧ ∀ u ∈ s.uses, u.allocation = a → u.seqId ≤ s.coherentSeqId
  good : ∀ l ∈ s.lists, l.Good s.recordsLatest

variable {pending : List Nat} {a n : Nat}

/-- At first the buffer owns its one allocation. -/
theorem Inv.init (suballocationCount : Nat) (recordsLatest : Bool) :
    (Dynamic.init suballocationCount recordsLatest).Inv [] where
  seq := Nat.zero_lt_one
  owners a := by
    by_cases ha : a = 0
    · cases ha
      rfl
    · have hlt : ¬ a < 1 := by omega
      have hcount : List.count a [0] = 0 := List.count_eq_zero.mpr (by simpa using ha)
      show List.count a [0] + 0 + 0 + 0 = if a < 1 then 1 else 0
      rw [hcount, if_neg hlt]
  used := nofun
  fifo := nofun
  encoded := Or.inl rfl
  follows _ := Nat.le_refl _
  owned := nofun
  nameUses := nofun
  nameLists := nofun
  recording := nofun
  good := nofun

/-! ### Owners -/

theorem Inv.owner_lt (h : s.Inv pending) (ha : 0 < s.owners a) : a < s.poolSize := by
  have := h.owners a
  by_contra hlt
  rw [if_neg hlt] at this
  omega

/-- An allocation has one owner. -/
theorem Inv.owners_le (h : s.Inv pending) (a : Nat) : s.owners a + pending.count a ≤ 1 := by
  have := h.owners a
  split at this <;> omega

theorem count_lists_pos (hl : l ∈ s.lists) (ha : a ∈ l.allocations) :
    0 < (s.lists.flatMap DynamicCommandList.allocations).count a :=
  List.count_pos_iff.mpr (List.mem_flatMap.mpr ⟨l, hl, ha⟩)

theorem owners_pos_of_list (hl : l ∈ s.lists) (ha : a ∈ l.allocations) : 0 < s.owners a := by
  have := count_lists_pos hl ha
  unfold Dynamic.owners
  omega

theorem owners_name (hown : s.ownedByCommandList = false) : 0 < s.owners s.name := by
  unfold Dynamic.owners
  simp only [hown, Bool.false_eq_true, if_false, List.count_singleton_self]
  omega

/-- What the name and the encoding thread stand at exists. -/
theorem Inv.name_lt (h : s.Inv []) : s.name < s.poolSize := by
  cases hown : s.ownedByCommandList with
  | false => exact h.owner_lt (owners_name hown)
  | true =>
    obtain ⟨-, ⟨l, hl, hmem⟩ | hmem⟩ := h.owned hown
    · exact h.owner_lt (owners_pos_of_list hl hmem)
    · cases hmem

theorem Inv.current_lt (h : s.Inv []) : s.encoded.current < s.poolSize := by
  rcases h.encoded with he | ⟨l, hl, hmem⟩
  · exact he ▸ h.name_lt
  · exact h.owner_lt (owners_pos_of_list hl hmem)

/-- What is free is named by nobody. -/
theorem Inv.free_ne (h : s.Inv pending) {e : Nat × Nat} (he : e ∈ s.fifo) :
    e.1 ≠ s.name ∧ e.1 ∉ pending ∧ ∀ l ∈ s.lists, e.1 ∉ l.allocations := by
  have hle := h.owners_le e.1
  have hfree : 0 < (s.fifo.map Prod.fst).count e.1 :=
    List.count_pos_iff.mpr (List.mem_map_of_mem he)
  have hlists : ∀ l ∈ s.lists, e.1 ∉ l.allocations := by
    intro l hl ha
    have := count_lists_pos hl ha
    unfold Dynamic.owners at hle
    omega
  have hpending : e.1 ∉ pending := by
    intro ha
    have := List.count_pos_iff.mpr ha
    unfold Dynamic.owners at hle
    omega
  refine ⟨fun hname => ?_, hpending, hlists⟩
  cases hown : s.ownedByCommandList with
  | false =>
    unfold Dynamic.owners at hle
    rw [hown, ← hname] at hle
    simp only [Bool.false_eq_true, if_false, List.count_singleton_self] at hle
    omega
  | true =>
    obtain ⟨-, ⟨l, hl, hmem⟩ | hmem⟩ := h.owned hown
    · exact hlists l hl (hname ▸ hmem)
    · exact hpending (hname ▸ hmem)

theorem Inv.free_ne_current (h : s.Inv pending) {e : Nat × Nat} (he : e ∈ s.fifo) :
    e.1 ≠ s.encoded.current := by
  intro heq
  obtain ⟨hname, -, hlists⟩ := h.free_ne he
  rcases h.encoded with hcur | ⟨l, hl, hmem⟩
  · exact hname (heq.trans hcur)
  · exact hlists l hl (heq ▸ hmem)

/-- No allocation is in two lists. -/
theorem Inv.nodup (h : s.Inv pending) :
    (s.lists.flatMap DynamicCommandList.allocations).Nodup := by
  refine List.nodup_iff_count_le_one.mpr fun a => ?_
  have := h.owners_le a
  unfold Dynamic.owners at this
  omega

theorem Inv.list_eq (h : s.Inv pending) {l' : DynamicCommandList} (hl : l ∈ s.lists)
    (hl' : l' ∈ s.lists) (ha : a ∈ l.allocations) (ha' : a ∈ l'.allocations) : l = l' :=
  holder_unique h.nodup hl hl' ha ha'

/-- A list reads the allocations that it owns, no further than it took them. -/
theorem Inv.reads (h : s.Inv pending) (hl : l ∈ s.lists) {p : Nat × Nat}
    (hp : p ∈ l.resolved.reads) : p.1 ∈ l.allocations := by
  obtain ⟨u, hu, ha, -⟩ := (h.good l hl).reads p hp
  exact ha ▸ List.mem_map_of_mem hu

theorem Inv.reads_le (h : s.Inv pending) (hl : l ∈ s.lists) {p : Nat × Nat}
    (hp : p ∈ l.resolved.reads) {u : UsedDynamic} (hu : u ∈ l.used) (ha : p.1 = u.allocation) :
    p.2 ≤ u.suballocation := by
  obtain ⟨v, hv, hva, hle⟩ := (h.good l hl).reads p hp
  have hnodup : (l.used.map UsedDynamic.allocation).Nodup := (List.nodup_flatMap.mp h.nodup).1 l hl
  rw [List.inj_on_of_nodup_map hnodup hu hv (ha.symm.trans hva.symm)]
  exact hle

/-! ### A free allocation -/

/-- Nobody has the allocation, and nothing that runs reads it. -/
structure Fresh (s : Dynamic) (a : Nat) : Prop where
  uses : ∀ u ∈ s.uses, u.allocation = a → u.seqId ≤ s.coherentSeqId
  name : a ≠ s.name
  current : a ≠ s.encoded.current
  lists : ∀ l ∈ s.lists, a ∉ l.allocations

theorem Inv.unread_of_fresh (h : s.Inv pending) (ha : s.Fresh a) (n : Nat) : s.Unread (a, n) :=
  ⟨fun u hu hua _ => ha.uses u hu hua, fun l hl hp => ha.lists l hl (h.reads hl hp)⟩

/-- A new allocation is fresh. -/
theorem Inv.allocateNew (h : s.Inv []) :
    ({ s with poolSize := s.poolSize + 1 } : Dynamic).Inv [s.poolSize] ∧ s.Fresh s.poolSize := by
  have hzero : s.owners s.poolSize = 0 := by
    have := h.owners s.poolSize
    rw [if_neg (Nat.lt_irrefl _)] at this
    omega
  have hfresh : s.Fresh s.poolSize := by
    refine ⟨fun u hu ha => ?_, Nat.ne_of_gt h.name_lt, Nat.ne_of_gt h.current_lt, fun l hl ha => ?_⟩
    · exact absurd (h.used u hu).1 (ha ▸ Nat.lt_irrefl _)
    · exact Nat.ne_of_gt (owners_pos_of_list hl ha) hzero
  refine ⟨⟨h.seq, fun a => ?_, fun u hu => ⟨Nat.lt_succ_of_lt (h.used u hu).1, (h.used u hu).2⟩,
    h.fifo, h.encoded, h.follows, fun hown => ?_, h.nameUses, h.nameLists, h.recording, h.good⟩,
    hfresh⟩
  · have howners := h.owners a
    rw [List.count_nil] at howners
    show s.owners a + _ = if a < s.poolSize + 1 then 1 else 0
    rw [List.count_singleton]
    by_cases ha : a = s.poolSize
    · cases ha
      simp [hzero]
    · have hne : (s.poolSize == a) = false := by simpa using Ne.symm ha
      rw [hne]
      simp only [Bool.false_eq_true, if_false]
      split at howners <;> split <;> omega
  · obtain ⟨hrec, hmem | hmem⟩ := h.owned hown
    · exact ⟨hrec, Or.inl hmem⟩
    · cases hmem

/-- A free allocation that the GPU is done with is fresh. -/
theorem Inv.allocateFree (h : s.Inv []) {e : Nat × Nat} {rest : List (Nat × Nat)}
    (hfifo : s.fifo = e :: rest) (hfree : e.2 ≤ s.coherentSeqId) :
    ({ s with fifo := rest } : Dynamic).Inv [e.1] ∧ s.Fresh e.1 := by
  have he : e ∈ s.fifo := hfifo ▸ List.mem_cons_self
  obtain ⟨hname, -, hlists⟩ := h.free_ne he
  refine ⟨⟨h.seq, fun a => ?_, h.used, fun e' he' => h.fifo e' (hfifo ▸ List.mem_cons_of_mem _ he'),
    h.encoded, h.follows, fun hown => ?_, h.nameUses, h.nameLists, h.recording, h.good⟩,
    fun u hu ha => Nat.le_trans (h.fifo e he u hu ha) hfree, hname, h.free_ne_current he, hlists⟩
  · have howners := h.owners a
    unfold Dynamic.owners at howners ⊢
    rw [hfifo] at howners
    simp only [List.map_cons, List.count_cons, List.count_nil] at howners ⊢
    omega
  · obtain ⟨hrec, hmem | hmem⟩ := h.owned hown
    · exact ⟨hrec, Or.inl hmem⟩
    · cases hmem

/-- An allocation is new, or the oldest free one. -/
theorem allocate_cases (s : Dynamic) (coherentSeqId : Nat) :
    s.allocate coherentSeqId = (s.poolSize, { s with poolSize := s.poolSize + 1 }) ∨
      ∃ e rest, s.fifo = e :: rest ∧ e.2 ≤ coherentSeqId ∧
        s.allocate coherentSeqId = (e.1, { s with fifo := rest }) := by
  unfold Dynamic.allocate
  split
  · exact Or.inl rfl
  · split
    · exact Or.inl rfl
    · exact Or.inr ⟨_, _, ‹_›, Nat.le_of_not_lt ‹_›, rfl⟩

/-- `allocate` takes an allocation that nobody has. -/
theorem Inv.allocate (h : s.Inv []) : ∃ a t, s.allocate s.coherentSeqId = (a, t) ∧ t.Inv [a] ∧
    t = { s with fifo := t.fifo, poolSize := t.poolSize } ∧ s.Fresh a := by
  rcases s.allocate_cases s.coherentSeqId with heq | ⟨e, rest, hfifo, hfree, heq⟩
  · exact ⟨_, _, heq, h.allocateNew.1, rfl, h.allocateNew.2⟩
  · exact ⟨_, _, heq, (h.allocateFree hfifo hfree).1, rfl, (h.allocateFree hfifo hfree).2⟩

/-! ### Maps on the immediate context -/

/-- The immediate context renames the resource to a free allocation. -/
theorem Inv.rename (h : s.Inv [a]) (ha : s.Fresh a) :
    ((s.updateImmediateName s.currentSeqId a 0 false).encode (.rename a)).Inv [] where
  seq := h.seq
  owners b := by
    have howners := h.owners b
    cases hown : s.ownedByCommandList with
    | true =>
      simp only [Dynamic.owners, updateImmediateName, Dynamic.encode, hown, if_true,
        Bool.false_eq_true, if_false, List.count_cons, List.count_nil] at howners ⊢
      omega
    | false =>
      simp only [Dynamic.owners, updateImmediateName, Dynamic.encode, hown, Bool.false_eq_true,
        if_false, List.count_cons, List.count_nil, List.map_append, List.map_cons, List.map_nil,
        List.count_append] at howners ⊢
      omega
  used := h.used
  fifo e he u hu hua := by
    cases hown : s.ownedByCommandList with
    | true =>
      simp only [updateImmediateName, Dynamic.encode, hown, if_true] at he
      exact h.fifo e he u hu hua
    | false =>
      simp only [updateImmediateName, Dynamic.encode, hown, Bool.false_eq_true, if_false,
        List.mem_append, List.mem_singleton] at he
      rcases he with he | rfl
      · exact h.fifo e he u hu hua
      · exact (h.used u hu).2
  encoded := Or.inl rfl
  follows _ := Nat.le_of_eq (Function.update_self ..)
  owned := nofun
  nameUses u hu hua _ := ha.uses u hu hua
  nameLists l hl p hp hpa := by
    have hpa : p.1 = a := hpa
    exact absurd (hpa ▸ h.reads hl hp) (ha.lists l hl)
  recording l hl hrec b hb := by
    have hne : b ≠ a := fun hba => ha.lists l hl (hba ▸ hb)
    exact ⟨hne, hne, (h.recording l hl hrec b hb).2.2⟩
  good := h.good

/-- The immediate context takes the next suballocation. -/
theorem Inv.next (h : s.Inv []) :
    (({ s with nameSuballocation := s.nameSuballocation + 1 } : Dynamic).encode
      (.useSuballocation s.name (s.nameSuballocation + 1))).Inv [] :=
  ⟨h.seq, h.owners, h.used, h.fifo, h.encoded, fun _ => Nat.le_of_eq (Function.update_self ..),
    h.owned, fun u hu hua hlt => h.nameUses u hu hua (Nat.lt_of_succ_lt hlt),
    fun l hl p hp hpa => Nat.le_succ_of_le (h.nameLists l hl p hp hpa), h.recording, h.good⟩

theorem mapDiscard_next (hnext : s.hasSuballocation (s.nameSuballocation + 1) = true) :
    s.mapDiscard = ((s.name, s.nameSuballocation + 1),
      ({ s with nameSuballocation := s.nameSuballocation + 1 } : Dynamic).encode
        (.useSuballocation s.name (s.nameSuballocation + 1))) := by
  simp [mapDiscard, nextSuballocation, hnext]

theorem mapDiscard_rename (hnext : s.hasSuballocation (s.nameSuballocation + 1) = false)
    (halloc : s.allocate s.coherentSeqId = (a, t)) :
    s.mapDiscard = ((a, 0), (t.updateImmediateName s.currentSeqId a 0 false).encode
    (.rename a)) := by
  simp only [mapDiscard, nextSuballocation, hnext, Bool.false_eq_true, if_false, ne_eq,
    not_true_eq_false, halloc]
  rfl

theorem Fresh.of_eq (ha : s.Fresh a)
    (ht : t = { s with fifo := t.fifo, poolSize := t.poolSize }) : t.Fresh a := by
  rw [ht]
  exact ⟨ha.uses, ha.name, ha.current, ha.lists⟩

/-- The map returns memory that is not read. -/
theorem Inv.mapDiscard (h : s.Inv []) : s.Unread s.mapDiscard.1 ∧ s.mapDiscard.2.Inv [] := by
  cases hnext : s.hasSuballocation (s.nameSuballocation + 1) with
  | true =>
    rw [mapDiscard_next hnext]
    refine ⟨⟨fun u hu hua hun => ?_, fun l hl hp => ?_⟩, h.next⟩
    · exact h.nameUses u hu hua (hun ▸ Nat.lt_succ_self _)
    · exact Nat.not_succ_le_self _ (h.nameLists l hl _ hp rfl)
  | false =>
    obtain ⟨a, t, halloc, hinv, ht, ha⟩ := h.allocate
    rw [mapDiscard_rename hnext halloc]
    have hseq : s.currentSeqId = t.currentSeqId := by rw [ht]
    exact ⟨h.unread_of_fresh ha 0, hseq ▸ hinv.rename (ha.of_eq ht)⟩

/-! ### Maps on a deferred context -/

/-- A list that is being recorded goes on, and takes what is pending. -/
theorem Inv.record (h : s.Inv pending) (hfresh : ∀ a ∈ pending, s.Fresh a)
    (hl : s.lists[i]? = some l) (hrec : l.recording = true) {l' : DynamicCommandList}
    (halloc : l'.allocations = l.allocations ++ pending) (hgood : l'.Good s.recordsLatest) :
    (s.setList i l').Inv [] := by
  have hmem : l ∈ s.lists := List.mem_of_getElem? hl
  have hmem' : l' ∈ s.lists.set i l' := List.mem_set (List.getElem?_eq_some_iff.mp hl).1 l'
  have hkeep : ∀ b, (∃ k ∈ s.lists, b ∈ k.allocations) →
      ∃ k ∈ s.lists.set i l', b ∈ k.allocations := by
    rintro b ⟨k, hk, hb⟩
    by_cases hkl : k = l
    · exact ⟨l', hmem', halloc ▸ List.mem_append_left _ (hkl ▸ hb)⟩
    · exact ⟨k, mem_of_mem_flatMap_set hl hk hkl, hb⟩
  have hapart : ∀ b ∈ l'.allocations, b ≠ s.name ∧ b ≠ s.encoded.current ∧
      ∀ u ∈ s.uses, u.allocation = b → u.seqId ≤ s.coherentSeqId := by
    intro b hb
    rw [halloc] at hb
    rcases List.mem_append.mp hb with hb | hb
    · exact h.recording l hmem hrec b hb
    · exact ⟨(hfresh b hb).name, (hfresh b hb).current, (hfresh b hb).uses⟩
  refine ⟨h.seq, fun b => ?_, h.used, h.fifo, h.encoded.imp_right (hkeep _), h.follows,
    fun hown => ?_, h.nameUses, fun k hk p hp hpn => ?_, fun k hk hkrec b hb => ?_, fun k hk => ?_⟩
  · have howners := h.owners b
    have hset := count_flatMap_set hl DynamicCommandList.allocations l' b
    rw [halloc, List.count_append] at hset
    rw [List.count_nil]
    unfold Dynamic.owners at howners ⊢
    unfold setList
    dsimp only at howners ⊢
    omega
  · obtain ⟨hlatest, hex | hpend⟩ := h.owned hown
    · exact ⟨hlatest, Or.inl (hkeep _ hex)⟩
    · exact absurd rfl (hfresh _ hpend).name
  · rcases List.mem_or_eq_of_mem_set hk with hk | rfl
    · exact h.nameLists k hk p hp hpn
    · obtain ⟨u, hu, ha, -⟩ := hgood.reads p hp
      exact absurd hpn (hapart p.1 (ha ▸ List.mem_map_of_mem hu)).1
  · rcases List.mem_or_eq_of_mem_set hk with hk | rfl
    · exact h.recording k hk hkrec b hb
    · exact hapart b hb
  · rcases List.mem_or_eq_of_mem_set hk with hk | rfl
    · exact h.good k hk
    · exact hgood

/-- A list takes an allocation that nobody reads. -/
theorem Inv.takeDeferred (h : s.Inv []) (hl : s.lists[i]? = some l) (hrec : l.recording = true) :
    s.Unread (s.takeDeferred i l).1 ∧ (s.takeDeferred i l).2.Inv [] := by
  obtain ⟨a, t, halloc, hinv, ht, ha⟩ := h.allocate
  have hgood := h.good l (List.mem_of_getElem? hl)
  obtain ⟨earlier, hends, hkept, -⟩ := DynamicCommandList.take_ends hgood hrec a
  have hallocs : (l.take a s.recordsLatest).allocations = l.allocations ++ [a] := by
    unfold DynamicCommandList.allocations at hkept ⊢
    rw [hends.used, List.map_append, hkept]
    rfl
  have hlt : t.lists[i]? = some l := by
    rw [ht]
    exact hl
  have hlatest : t.recordsLatest = s.recordsLatest := by rw [ht]
  unfold Dynamic.takeDeferred
  rw [halloc]
  refine ⟨h.unread_of_fresh ha 0, hinv.record ?_ hlt hrec hallocs ?_⟩
  · intro b hb
    cases List.mem_singleton.mp hb
    exact ha.of_eq ht
  · rw [hlatest]
    exact hgood.take hrec a

/-- A list that is being recorded takes the next suballocation. -/
theorem Inv.suballocate (h : s.Inv []) (hl : s.lists[i]? = some l) (hrec : l.recording = true)
    {c : DynamicBufferAllocation} (hc : l.current = some c) :
    s.Unread (c.allocation, c.suballocation + 1) ∧ (s.setList i (l.suballocate c)).Inv [] := by
  have hmem : l ∈ s.lists := List.mem_of_getElem? hl
  have hgood := h.good l hmem
  obtain ⟨earlier, he, he'⟩ := DynamicCommandList.suballocate_used hgood hc
  have hlast : (⟨c.allocation, c.suballocation, s.recordsLatest⟩ : UsedDynamic) ∈ l.used := by
    rw [he.used]
    exact List.mem_append_right _ (List.mem_singleton_self _)
  have hown : c.allocation ∈ l.allocations := List.mem_map_of_mem hlast
  refine ⟨⟨fun u hu hua _ => (h.recording l hmem hrec _ hown).2.2 u hu hua, fun k hk hp => ?_⟩,
    h.record nofun hl hrec ?_ (hgood.suballocate hc)⟩
  · cases h.list_eq hk hmem (h.reads hk hp) hown
    exact Nat.not_succ_le_self _ (h.reads_le hmem hp hlast rfl)
  · unfold DynamicCommandList.allocations
    rw [he'.used, he.used]
    simp

/-- A map in a list gives memory that nobody reads. -/
theorem Inv.mapDeferred (h : s.Inv []) {r : (Nat × Nat) × Dynamic}
    (hr : s.mapDeferred i = some r) : s.Unread r.1 ∧ r.2.Inv [] := by
  unfold Dynamic.mapDeferred at hr
  cases hl : s.lists[i]? with
  | none =>
    rw [hl] at hr
    cases hr
  | some l =>
    rw [hl] at hr
    dsimp only at hr
    cases hrec : l.recording with
    | false =>
      rw [if_pos hrec] at hr
      cases hr
    | true =>
      rw [if_neg (by rw [hrec]; nofun)] at hr
      cases hc : l.current with
      | none =>
        rw [hc] at hr
        cases hr
        exact h.takeDeferred hl hrec
      | some c =>
        rw [hc] at hr
        dsimp only at hr
        split at hr
        · cases hr
          exact h.suballocate hl hrec hc
        · cases hr
          exact h.takeDeferred hl hrec

/-! ### Command lists -/

/-- What the reset of a list gives back goes to the resource that has it, or it is free. -/
theorem Inv.recycle (h : s.Inv (a :: pending)) : (s.recycle s.currentSeqId a).Inv pending := by
  unfold Dynamic.recycle
  by_cases hname : s.ownedByCommandList = true ∧ s.name = a
  · obtain ⟨hown, rfl⟩ := hname
    rw [if_pos ⟨hown, rfl⟩]
    refine ⟨h.seq, fun b => ?_, h.used, h.fifo, h.encoded, h.follows, nofun, h.nameUses,
      h.nameLists, h.recording, h.good⟩
    have howners := h.owners b
    simp only [Dynamic.owners, hown, if_true, Bool.false_eq_true, if_false, List.count_cons,
      List.count_nil] at howners ⊢
    omega
  · rw [if_neg hname]
    refine ⟨h.seq, fun b => ?_, h.used, fun e he u hu hua => ?_, h.encoded, h.follows,
      fun hown => ?_, h.nameUses, h.nameLists, h.recording, h.good⟩
    · have howners := h.owners b
      simp only [Dynamic.owners, List.count_cons, List.count_nil, List.map_append, List.map_cons,
        List.map_nil, List.count_append] at howners ⊢
      omega
    · rcases List.mem_append.mp he with he | he
      · exact h.fifo e he u hu hua
      · cases List.mem_singleton.mp he
        exact (h.used u hu).2
    · obtain ⟨hlatest, hex | hpend⟩ := h.owned hown
      · exact ⟨hlatest, Or.inl hex⟩
      · rcases List.mem_cons.mp hpend with heq | hpend
        · exact absurd ⟨hown, heq⟩ hname
        · exact ⟨hlatest, Or.inr hpend⟩

@[simp]
theorem recycle_currentSeqId (s : Dynamic) (seqId a : Nat) :
    (s.recycle seqId a).currentSeqId = s.currentSeqId := by
  unfold Dynamic.recycle
  split <;> rfl

/-- What a list used comes back. -/
theorem Inv.recycleAll (us : List UsedDynamic) (h : s.Inv (us.map UsedDynamic.allocation)) :
    (us.foldl (fun s u => s.recycle s.currentSeqId u.allocation) s).Inv [] := by
  induction us generalizing s with
  | nil => exact h
  | cons u us ih => exact ih h.recycle

/-- The list gives up what it owns. -/
theorem Inv.emptyList (h : s.Inv []) (hl : s.lists[i]? = some l) (hmeets : s.Releasable l) :
    (s.setList i {}).Inv l.allocations := by
  have hmem : l ∈ s.lists := List.mem_of_getElem? hl
  have hback : ∀ k ∈ s.lists.set i {}, k ∈ s.lists ∨ k = {} := fun k hk =>
    List.mem_or_eq_of_mem_set hk
  refine ⟨h.seq, fun b => ?_, h.used, h.fifo, ?_, h.follows, fun hown => ?_, h.nameUses,
    fun k hk p hp hpn => ?_, fun k hk hkrec b hb => ?_, fun k hk => ?_⟩
  · have howners := h.owners b
    have hset := count_flatMap_set hl DynamicCommandList.allocations {} b
    have hempty : (({} : DynamicCommandList).allocations).count b = 0 := rfl
    rw [hempty] at hset
    rw [List.count_nil] at howners
    unfold Dynamic.owners at howners ⊢
    unfold setList
    dsimp only at howners ⊢
    omega
  · rcases h.encoded with he | ⟨k, hk, hb⟩
    · exact Or.inl he
    · by_cases hkl : k = l
      · exact Or.inl (hmeets (hkl ▸ hb))
      · exact Or.inr ⟨k, mem_of_mem_flatMap_set hl hk hkl, hb⟩
  · obtain ⟨hlatest, ⟨k, hk, hb⟩ | hpend⟩ := h.owned hown
    · by_cases hkl : k = l
      · exact ⟨hlatest, Or.inr (hkl ▸ hb)⟩
      · exact ⟨hlatest, Or.inl ⟨k, mem_of_mem_flatMap_set hl hk hkl, hb⟩⟩
    · cases hpend
  · rcases hback k hk with hk | rfl
    · exact h.nameLists k hk p hp hpn
    · cases hp
  · rcases hback k hk with hk | rfl
    · exact h.recording k hk hkrec b hb
    · cases hb
  · rcases hback k hk with hk | rfl
    · exact h.good k hk
    · exact DynamicCommandList.Good.empty

theorem Inv.of_perm (h : s.Inv pending) {pending' : List Nat} (hperm : pending.Perm pending') :
    s.Inv pending' :=
  { h with
    owners := fun a => by rw [← hperm.count_eq]; exact h.owners a
    owned := fun hown =>
      ⟨(h.owned hown).1, (h.owned hown).2.imp_right fun hp => hperm.mem_iff.mp hp⟩ }

/-- A list that is reset gives its allocations back. -/
theorem Inv.reset (h : s.Inv []) (hl : s.lists[i]? = some l) (hmeets : s.Releasable l) :
    (s.reset i l).Inv [] := by
  have hperm : l.allocations.Perm (l.used.reverse.map UsedDynamic.allocation) :=
    l.used.reverse_perm.symm.map _
  exact Inv.recycleAll _ ((h.emptyList hl hmeets).of_perm hperm)

/-- The reads of `r` are those of lists that are executed. -/
def Reads (s : Dynamic) (r : Resolved) : Prop :=
  ∀ p ∈ r.reads, ∃ l ∈ s.lists, l.recording = false ∧ p ∈ l.resolved.reads

/-- A read that is added is of what an executed list owns, or of what the resource had. -/
theorem Inv.newUse (h : s.Inv []) {v : Dynamic} {r : Resolved} (hr : s.Reads r) (he : Encodes v t r)
    (huses : v.uses = s.uses) (hencoded : v.encoded = s.encoded) {u : DynamicUse} (hu : u ∈ t.uses)
    (hnew : u ∉ s.uses) :
    u.seqId = v.currentSeqId ∧ u.allocation < s.poolSize ∧ (∀ e ∈ s.fifo, u.allocation ≠ e.1) ∧
      ∀ k ∈ s.lists, k.recording = true → u.allocation ∉ k.allocations := by
  rcases he.uses u hu with hu | ⟨hseq, hread | ⟨-, hcur, -⟩⟩
  · exact absurd (huses ▸ hu) hnew
  · obtain ⟨l, hl, hrec, hp⟩ := hr _ hread
    have hown := h.reads hl hp
    refine ⟨hseq, h.owner_lt (owners_pos_of_list hl hown), fun e hfree heq => ?_,
      fun k hk hkrec hmem => ?_⟩
    · exact (h.free_ne hfree).2.2 l hl (heq ▸ hown)
    · cases h.list_eq hl hk hown hmem
      rw [hrec] at hkrec
      cases hkrec
  · rw [hcur, hencoded]
    refine ⟨hseq, h.current_lt, fun e hfree heq => ?_, fun k hk hkrec hmem => ?_⟩
    · exact h.free_ne_current hfree heq.symm
    · exact (h.recording k hk hkrec _ hmem).2.1 rfl

theorem Inv.name_not_listed (h : s.Inv pending) (hown : s.ownedByCommandList = false)
    (hl : l ∈ s.lists) : s.name ∉ l.allocations := by
  intro hmem
  have hle := h.owners_le s.name
  have := count_lists_pos hl hmem
  unfold Dynamic.owners at hle
  simp only [hown, Bool.false_eq_true, if_false, List.count_singleton_self] at hle
  omega

/-- Commands that leave the name as it is. -/
theorem Inv.encodes (h : s.Inv []) {r : Resolved} (hr : s.Reads r) (he : Encodes s t r)
    (hcurrent : ∀ a n, r.current = some (a, n) → s.recordsLatest = false ∧
      ∃ l ∈ s.lists, l.recording = false ∧ a ∈ l.allocations) : t.Inv [] := by
  have hwhere : t.encoded = s.encoded ∨ s.recordsLatest = false ∧
      ∃ l ∈ s.lists, l.recording = false ∧ t.encoded.current ∈ l.allocations := by
    cases hc : r.current with
    | none => exact Or.inl (he.same hc)
    | some p =>
      obtain ⟨hlatest, l, hl, hrec, hmem⟩ := hcurrent p.1 p.2 hc
      exact Or.inr ⟨hlatest, l, hl, hrec, (he.renamed p.1 p.2 hc).1 ▸ hmem⟩
  rw [he.rest]
  refine ⟨h.seq, h.owners, fun u hu => ?_, fun e hfree u hu hua => ?_, ?_, fun hname => ?_, h.owned,
    fun u hu hua hlt => ?_, h.nameLists, fun k hk hkrec b hb => ?_, h.good⟩
  · by_cases hold : u ∈ s.uses
    · exact h.used u hold
    · obtain ⟨hseq, hlt, -⟩ := h.newUse hr he rfl rfl hu hold
      exact ⟨hlt, Nat.le_of_eq hseq⟩
  · by_cases hold : u ∈ s.uses
    · exact h.fifo e hfree u hold hua
    · obtain ⟨-, -, hne, -⟩ := h.newUse hr he rfl rfl hu hold
      exact absurd hua (hne e hfree)
  · rcases hwhere with heq | ⟨-, l, hl, -, hmem⟩
    · exact heq ▸ h.encoded
    · exact Or.inr ⟨l, hl, hmem⟩
  · rcases hwhere with heq | ⟨hlatest, l, hl, -, hmem⟩
    · rw [heq] at hname ⊢
      exact h.follows hname
    · cases hown : s.ownedByCommandList with
      | true => exact absurd (hlatest.symm.trans (h.owned hown).1) Bool.false_ne_true
      | false =>
        have hname : t.encoded.current = s.name := hname
        exact absurd (hname ▸ hmem) (h.name_not_listed hown hl)
  · rcases he.uses u hu with hold | ⟨-, hread | ⟨-, hcur, hsub⟩⟩
    · exact h.nameUses u hold hua hlt
    · obtain ⟨l, hl, -, hp⟩ := hr _ hread
      exact absurd (h.nameLists l hl _ hp hua) (Nat.not_le_of_lt hlt)
    · have hname : s.encoded.current = s.name := hcur.symm.trans hua
      have := h.follows hname
      rw [hname] at hsub
      exact absurd (hsub ▸ this) (Nat.not_le_of_lt hlt)
  · obtain ⟨hne, hcur, huses⟩ := h.recording k hk hkrec b hb
    refine ⟨hne, ?_, fun u hu hua => ?_⟩
    · rcases hwhere with heq | ⟨-, l, hl, hrec, hmem⟩
      · exact heq ▸ hcur
      · intro hbc
        have hbc : b = t.encoded.current := hbc
        cases h.list_eq hl hk hmem (hbc ▸ hb)
        rw [hrec] at hkrec
        cases hkrec
    · by_cases hold : u ∈ s.uses
      · exact huses u hold hua
      · obtain ⟨-, -, -, hapart⟩ := h.newUse hr he rfl rfl hu hold
        exact absurd (hua ▸ hb) (hapart k hk hkrec)

/-- The commands of a list that names its latest allocation. -/
theorem Inv.encodesLatest (h : s.Inv []) (hl : l ∈ s.lists) (hrec : l.recording = false)
    (hlatest : s.recordsLatest = true) {earlier : List UsedDynamic}
    (hends : l.Ends true earlier a n) (hmeets : s.SetsForward l)
    (he : Encodes (s.updateImmediateName s.currentSeqId a n true) t l.resolved) : t.Inv [] := by
  have hlast : (⟨a, n, true⟩ : UsedDynamic) ∈ l.used := by
    rw [hends.used]
    exact List.mem_append_right _ (List.mem_singleton_self _)
  have hmem : a ∈ l.allocations := List.mem_map_of_mem hlast
  obtain ⟨hback, hlead⟩ := hmeets _ hlast rfl
  obtain ⟨hcur, hsub⟩ := he.renamed a n hends.resolved
  have hr : s.Reads l.resolved := fun p hp => ⟨l, hl, hrec, hp⟩
  have hfifo : ∀ e ∈ t.fifo, e ∈ s.fifo ∨ s.ownedByCommandList = false ∧
      e = (s.name, s.currentSeqId) := by
    rw [he.rest]
    intro e hfree
    cases hown : s.ownedByCommandList with
    | true =>
      simp only [updateImmediateName, hown, if_true] at hfree
      exact Or.inl hfree
    | false =>
      simp only [updateImmediateName, hown, Bool.false_eq_true, if_false, List.mem_append,
        List.mem_singleton] at hfree
      exact hfree.imp_right fun heq => ⟨rfl, heq⟩
  have hused : ∀ u ∈ t.uses, u.allocation < s.poolSize ∧ u.seqId ≤ s.currentSeqId := by
    intro u hu
    by_cases hold : u ∈ s.uses
    · exact h.used u hold
    · obtain ⟨hseq, hlt, -⟩ := h.newUse hr he rfl rfl hu hold
      exact ⟨hlt, Nat.le_of_eq hseq⟩
  have hfree : ∀ e ∈ t.fifo, ∀ u ∈ t.uses, u.allocation = e.1 → u.seqId ≤ e.2 := by
    intro e hfree u hu hua
    rcases hfifo e hfree with hfree | ⟨-, rfl⟩
    · by_cases hold : u ∈ s.uses
      · exact h.fifo e hfree u hold hua
      · obtain ⟨-, -, hne, -⟩ := h.newUse hr he rfl rfl hu hold
        exact absurd hua (hne e hfree)
    · exact (hused u hu).2
  rw [he.rest] at hfree ⊢
  refine ⟨h.seq, fun b => ?_, hused, hfree, Or.inl hcur, fun _ => ?_,
    fun _ => ⟨hlatest, Or.inl ⟨l, hl, hmem⟩⟩, fun u hu hua hlt => ?_, fun k hk p hp hpa => ?_,
    fun k hk hkrec b hb => ?_, h.good⟩
  · have howners := h.owners b
    cases hown : s.ownedByCommandList with
    | true =>
      simp only [Dynamic.owners, updateImmediateName, hown, if_true] at howners ⊢
      exact howners
    | false =>
      simp only [Dynamic.owners, updateImmediateName, hown, Bool.false_eq_true, if_false, if_true,
        List.count_cons, List.count_nil, List.map_append, List.map_cons, List.map_nil,
        List.count_append] at howners ⊢
      omega
  · exact Nat.le_of_eq hsub
  · rcases he.uses u hu with hold | ⟨-, hread | ⟨hleads, hold, hson⟩⟩
    · exact hback u hold hua hlt
    · exact absurd (h.reads_le hl hread hlast hua) (Nat.not_le_of_lt hlt)
    · have hcur : s.encoded.current = a := hold.symm.trans hua
      have hson : u.suballocation = s.encoded.suballocation s.encoded.current := hson
      have hle := hlead hleads hcur
      rw [hcur] at hson
      exact absurd (hson ▸ hle) (Nat.not_le_of_lt hlt)
  · have hpa : p.1 = a := hpa
    cases h.list_eq hk hl (h.reads hk hp) (hpa ▸ hmem)
    exact h.reads_le hl hp hlast hpa
  · have hne : b ≠ a := by
      rintro rfl
      cases h.list_eq hl hk hmem hb
      rw [hrec] at hkrec
      cases hkrec
    refine ⟨hne, fun heq => hne (heq.trans hcur), fun u hu hua => ?_⟩
    by_cases hold : u ∈ s.uses
    · exact (h.recording k hk hkrec b hb).2.2 u hold hua
    · obtain ⟨-, -, -, hapart⟩ := h.newUse hr he rfl rfl hu hold
      exact absurd (hua ▸ hb) (hapart k hk hkrec)

theorem foldl_names {us : List UsedDynamic} (hus : ∀ u ∈ us, u.latest = false) (s : Dynamic) :
    us.foldl (fun s u => if u.latest then
      s.updateImmediateName s.currentSeqId u.allocation u.suballocation true else s) s = s := by
  induction us with
  | nil => rfl
  | cons u us ih =>
    rw [List.foldl_cons, hus u List.mem_cons_self]
    exact ih fun v hv => hus v (List.mem_cons_of_mem _ hv)

/-- A list that is executed sets the names that it used. -/
theorem Inv.execute (h : s.Inv []) (hl : s.lists[i]? = some l) (hrec : l.recording = false)
    (hmeets : s.SetsForward l) : (s.execute l).Inv [] := by
  have hmem : l ∈ s.lists := List.mem_of_getElem? hl
  have hgood := h.good l hmem
  have hr : s.Reads l.resolved := fun p hp => ⟨l, hmem, hrec, hp⟩
  unfold Dynamic.execute
  rcases hgood.ends with ⟨hnil, hnone, -⟩ | ⟨earlier, a, n, hends⟩
  · rw [hnil]
    exact h.encodes hr (encodes_foldl s _ hgood.ok) fun a n hc => nomatch hnone.symm.trans hc
  · have hown : a ∈ l.allocations := by
      unfold DynamicCommandList.allocations
      rw [hends.used, List.map_append]
      exact List.mem_append_right _ (List.mem_singleton_self _)
    cases hlatest : s.recordsLatest with
    | false =>
      rw [hlatest] at hends
      have hall : ∀ u ∈ l.used, u.latest = false := by
        intro u hu
        rw [hends.used] at hu
        rcases List.mem_append.mp hu with hu | hu
        · exact hends.replaced u hu
        · cases List.mem_singleton.mp hu
          rfl
      rw [foldl_names hall]
      refine h.encodes hr (encodes_foldl s _ hgood.ok) fun b m hc => ⟨hlatest, l, hmem, hrec, ?_⟩
      cases hends.resolved.symm.trans hc
      exact hown
    | true =>
      rw [hlatest] at hends
      rw [hends.used, List.foldl_append, foldl_names hends.replaced]
      exact h.encodesLatest hmem hrec hlatest hends hmeets (encodes_foldl _ _ hgood.ok)

/-- A new list owns nothing. -/
theorem Inv.newList (h : s.Inv []) : ({ s with lists := s.lists ++ [{}] } : Dynamic).Inv [] := by
  have hback : ∀ k ∈ s.lists ++ [({} : DynamicCommandList)], k ∈ s.lists ∨ k = {} := fun k hk =>
    (List.mem_append.mp hk).imp_right List.mem_singleton.mp
  have hkeep : ∀ b, (∃ k ∈ s.lists, b ∈ k.allocations) →
      ∃ k ∈ s.lists ++ [({} : DynamicCommandList)], b ∈ k.allocations := fun b ⟨k, hk, hb⟩ =>
    ⟨k, List.mem_append_left _ hk, hb⟩
  refine ⟨h.seq, fun b => ?_, h.used, h.fifo, h.encoded.imp_right (hkeep _), h.follows,
    fun hown => (h.owned hown).imp_right (Or.imp_left (hkeep _)), h.nameUses,
    fun k hk p hp hpn => ?_, fun k hk hkrec b hb => ?_, fun k hk => ?_⟩
  · have howners := h.owners b
    unfold Dynamic.owners at howners ⊢
    rw [List.flatMap_append, List.count_append]
    exact howners
  · rcases hback k hk with hk | rfl
    · exact h.nameLists k hk p hp hpn
    · cases hp
  · rcases hback k hk with hk | rfl
    · exact h.recording k hk hkrec b hb
    · cases hb
  · rcases hback k hk with hk | rfl
    · exact h.good k hk
    · exact DynamicCommandList.Good.empty

/-! ### Runs -/

/-- **One step.** -/
theorem Inv.step (h : s.Inv []) {e : Event} (hmeets : s.Meets e) (hs : s.step e = some t) :
    t.Inv [] := by
  cases e with
  | discard =>
    cases hs
    exact h.mapDiscard.2
  | read =>
    cases hs
    have he : Encodes s (s.encode .read) { leads := true } :=
      (encodes_foldl s [] rfl).encode .read rfl
    exact h.encodes (fun _ hp => absurd hp List.not_mem_nil) he fun _ _ hc => nomatch hc
  | newList =>
    cases hs
    exact h.newList
  | discardDeferred i =>
    obtain ⟨r, hr, rfl⟩ := Option.map_eq_some_iff.mp hs
    exact (h.mapDeferred hr).2
  | readDeferred i =>
    simp only [Dynamic.step] at hs
    split at hs
    · cases hs
    · next l hl =>
      split at hs
      · next hrec =>
        cases hs
        exact h.record nofun hl hrec (List.append_nil _).symm
          (h.good l (List.mem_of_getElem? hl)).read
      · cases hs
  | finish i =>
    simp only [Dynamic.step] at hs
    split at hs
    · cases hs
    · next l hl =>
      split at hs
      · next hrec =>
        cases hs
        exact h.record nofun hl hrec (List.append_nil _).symm
          (h.good l (List.mem_of_getElem? hl)).finish
      · cases hs
  | execute i =>
    simp only [Dynamic.step] at hs
    split at hs
    · cases hs
    · next l hl =>
      split at hs
      · cases hs
      · next hrec =>
        cases hs
        exact h.execute hl (Bool.eq_false_iff.mpr hrec) (hmeets l hl)
  | reset i =>
    simp only [Dynamic.step] at hs
    split at hs
    · cases hs
    · next l hl =>
      cases hs
      exact h.reset hl (hmeets l hl)
  | commit =>
    cases hs
    exact { h with
      seq := Nat.lt_succ_of_lt h.seq
      used := fun u hu => ⟨(h.used u hu).1, Nat.le_succ_of_le (h.used u hu).2⟩
      owners := h.owners }
  | advance seqId =>
    simp only [Dynamic.step] at hs
    split at hs
    · next hle =>
      cases hs
      exact { h with
        seq := hle.2
        owners := h.owners
        nameUses := fun u hu hua hlt => Nat.le_trans (h.nameUses u hu hua hlt) hle.1
        recording := fun k hk hkrec b hb =>
          (h.recording k hk hkrec b hb).imp_right (And.imp_right fun huses u hu hua =>
            Nat.le_trans (huses u hu hua) hle.1) }
    · cases hs

theorem Inv.renames (hs : s.Inv []) (run : Renames s t) : t.Inv [] := by
  induction run with
  | refl => exact hs
  | tail e _ meets step ih => exact ih.step meets step

/-- Whatever is handed out next, nobody reads it. -/
theorem Inv.safe (h : s.Inv []) : s.Safe where
  discard := h.mapDiscard.1
  discardDeferred _ _ hr := (h.mapDeferred hr).1
  free _ he := ⟨(h.free_ne he).1, h.free_ne_current he⟩
  owners a := h.owners_le a

/-- **Renaming.** In every run that does not set a suballocation back that is read, and does not
reset a list that owns what the resource has, the maps return memory that nothing reads. -/
theorem renaming_safe (suballocationCount : Nat) (recordsLatest : Bool)
    (run : Renames (init suballocationCount recordsLatest) s) : s.Safe :=
  ((Inv.init suballocationCount recordsLatest).renames run).safe

/-- A list with two suballocations is executed twice, and discarded in between, when the first
execution has completed. -/
theorem renaming_safe_twice : ∃ s : Dynamic, s.uses ≠ [] ∧ s.fifo = [(0, 1)] ∧ s.Safe :=
  have run : Renames (init 4 true) _ :=
    (((((((((Renames.refl _).tail .newList trivial rfl).tail (.discardDeferred 0) trivial rfl).tail
      (.readDeferred 0) trivial rfl).tail (.finish 0) trivial rfl).tail (.execute 0)
      (by intro l hl; cases hl; decide) rfl).tail .discard trivial rfl).tail .commit trivial
      rfl).tail
      (.advance 1) trivial rfl).tail (.execute 0) (by intro l hl; cases hl; decide) rfl
  ⟨_, by decide, rfl, renaming_safe 4 true run⟩

/-- The list is executed again while the suballocation after its own is read. -/
theorem discard_overwrites :
    ∃ s, [Event.newList, .discardDeferred 0, .finish 0, .execute 0, .discard, .read, .commit,
      .execute 0].foldlM step (init 4 true) = some s ∧ ¬ s.Safe := by
  refine ⟨_, rfl, fun hsafe => ?_⟩
  have := hsafe.discard.1 ⟨1, 1, 1⟩ (by decide) rfl rfl
  exact absurd this (by decide)

/-- The list is reset while the texture has its allocation. -/
theorem texture_recycled :
    ∃ s, [Event.newList, .discardDeferred 0, .finish 0, .execute 0, .commit, .reset 0, .commit,
      .read, .commit, .advance 2].foldlM step (init 1 false) = some s ∧ ¬ s.Safe := by
  refine ⟨_, rfl, fun hsafe => ?_⟩
  have := hsafe.discard.1 ⟨1, 0, 3⟩ (by decide) rfl rfl
  exact absurd this (by decide)

end Dynamic

end Dxmt
