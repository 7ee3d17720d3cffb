import Dxmt.Tracker

/-!
# Barriers inside an encoder: `resolveComputePassBarrier`, `resolveRenderPassBarrier`

The accesses of one encoder to one resource add bits to its `EncoderBarrierState`, and a resolve
before the command of a dispatch or draw turns pending bits into barriers. The barrier stands before
that command, so the accesses of this very dispatch are not behind it: an access is kept in `past`
with the number of its command and the barriers emitted after that command.

Which barrier orders two stages? Not only the one from the first stage to the second. A pre-raster
read after a pre-raster write already makes the following fragment stages wait (`IMPLICIT BARRIER`),
so it is any covering one (`RenderBarrier.Covers`).

Three things go wrong. `accessExclusive` forgets the readers before it looks at them, so a UAV write
after a read asks for a barrier after writes only (`barrier_lost`). The bit that a read and a write
of one dispatch ask for is resolved before that dispatch, and nothing asks again. And
`resolveRenderPassBarrier` drops a barrier from the fragment to the pre-raster stage with a warning,
and everything pending with it. `ComputeAccessSafe` and `RenderAccessSafe` say when an access does
not get there, from the accesses before it alone.

Results: `compute_covered` and `render_covered` are the coverage of an access of a run of such
accesses, `barriers_cover` both, with what a resolve that ignores UAV writes after UAV writes then
emits. The induction keeps what the reader flags stand for: the reads since the last write
(`ComputeWritten`, `PreRasterWritten`, `FragmentWritten`), with the numbers of their commands.
-/

namespace Dxmt

open GenericAccessTracker TrackState

/-- `kIntrapassControlBitIgnoreUAVWaW` (`dxmt_context.hpp:31`). -/
def kIntrapassControlBitIgnoreUAVWaW : BitVec 64 := 1#64 <<< 1

/-- `set & ~intrapass_barrier_control_bits_`, as a condition. -/
def barrierDue (set : BitVec 2) (control : BitVec 64) : Bool :=
  set.setWidth 64 &&& ~~~control != 0

/-- The set has a bit of `type`. -/
def HasBarrier (type set : BitVec 2) : Prop := set &&& type ≠ 0

instance (type set : BitVec 2) : Decidable (HasBarrier type set) :=
  inferInstanceAs (Decidable (_ ≠ _))

theorem hasBarrier_or {type x y : BitVec 2} :
    HasBarrier type (x ||| y) ↔ HasBarrier type x ∨ HasBarrier type y := by
  revert type x y
  decide

theorem hasBarrier_self (type : BitVec 2) : type ≠ 0 → HasBarrier type type := by
  revert type
  decide

theorem hasBarrier_or_self {type x : BitVec 2} (h : type ≠ 0) : HasBarrier type (x ||| type) :=
  hasBarrier_or.mpr (Or.inr (hasBarrier_self type h))

theorem kBarrierTypeRW_ne_zero : kBarrierTypeRW ≠ 0 := by decide

theorem barrierTypeOfWrite_ne_zero (uav : Bool) : barrierTypeOfWrite uav ≠ 0 := by
  cases uav <;> decide

theorem hasBarrier_ofWrite {uav : Bool} {set : BitVec 2}
    (h : HasBarrier (barrierTypeOfWrite uav) set) :
    HasBarrier kBarrierTypeRW set ∨ (uav = true ∧ HasBarrier kBarrierTypeWaW set) := by
  cases uav
  · exact Or.inl h
  · exact Or.inr ⟨rfl, h⟩

/-- A pending read/write bit is due unless the control bits mask it. -/
theorem barrierDue_of_rw {set : BitVec 2} {control : BitVec 64} (h : HasBarrier kBarrierTypeRW set)
    (hc : control[0] = false) : barrierDue set control = true := by
  have h0 : set[0] = true := by
    revert h
    revert set
    decide
  rw [barrierDue, bne_iff_ne]
  intro hz
  have := congrArg (fun w : BitVec 64 => w.getLsbD 0) hz
  simp [h0, hc] at this

/-- What is not due is masked, and stays. -/
theorem barrierDue_zero (control : BitVec 64) : barrierDue 0 control = false := by
  simp [barrierDue]

/-! ## Accesses and commands -/

section History

variable {α β : Type} {write : α → Bool}

/-- A step of an encoder, as far as one tracker goes: an access, or the resolve that stands before
the command of the dispatch or draw whose accesses were made since the last one. -/
inductive EncoderEvent (α : Type) where
  | access (a : α)
  | resolve (control : BitVec 64)

/-- An access, with how many commands were encoded before its own. -/
structure NumberedAccess (α : Type) where
  access : α
  command : Nat

/-- The accesses so far, the newest first, and the number of the command that comes next. -/
structure AccessHistory (α : Type) where
  accesses : List (NumberedAccess α)
  command : Nat

namespace AccessHistory

/-- Nothing is accessed yet. -/
def start : AccessHistory α := ⟨[], 0⟩

/-- An access belongs to the command that the next `resolve` encodes. -/
def step (h : AccessHistory α) : EncoderEvent α → AccessHistory α
  | .access a => { h with accesses := ⟨a, h.command⟩ :: h.accesses }
  | .resolve _ => { h with command := h.command + 1 }

/-- The newest write. -/
def lastWrite? (write : α → Bool) (h : AccessHistory α) : Option (NumberedAccess α) :=
  h.accesses.find? fun x => write x.access

/-- The reads after it. -/
def sinceWrite (write : α → Bool) (h : AccessHistory α) : List (NumberedAccess α) :=
  h.accesses.takeWhile fun x => !write x.access

/-- A write that follows the write `w` with no read between them does not follow a read of the
command of `w`, unless it is of that command too. -/
def Unread (write : α → Bool) (h : AccessHistory α) (w : NumberedAccess α) : Prop :=
  h.sinceWrite write = [] → w.command = h.command ∨
    ∀ x ∈ h.accesses, x.command = w.command → write x.access = true

instance (h : AccessHistory α) (w : NumberedAccess α) : Decidable (h.Unread write w) :=
  decidable_of_iff ((h.sinceWrite write).isEmpty = true → w.command = h.command ∨
    ∀ x ∈ h.accesses, x.command = w.command → write x.access = true) <| by
      rw [List.isEmpty_iff, Unread]

end AccessHistory

/-- Every access meets the condition, given those before it. -/
def EveryAccess (safe : AccessHistory α → α → Prop) : AccessHistory α → List (EncoderEvent α) → Prop
  | _, [] => True
  | h, .access a :: es => safe h a ∧ EveryAccess safe (h.step (.access a)) es
  | h, .resolve control :: es => EveryAccess safe (h.step (.resolve control)) es

instance decidableEveryAccess {safe : AccessHistory α → α → Prop} [∀ h a, Decidable (safe h a)] :
    (h : AccessHistory α) → (es : List (EncoderEvent α)) → Decidable (EveryAccess safe h es)
  | _, [] => isTrue trivial
  | h, .access a :: es =>
    have : Decidable (EveryAccess safe (h.step (.access a)) es) := decidableEveryAccess _ es
    inferInstanceAs (Decidable (_ ∧ _))
  | h, .resolve control :: es =>
    have : Decidable (EveryAccess safe (h.step (.resolve control)) es) := decidableEveryAccess _ es
    this

/-- The condition on an access after others. -/
theorem EveryAccess.append {safe : AccessHistory α → α → Prop} {a : α} {es : List (EncoderEvent α)}
    {h : AccessHistory α} (hes : EveryAccess safe h (es ++ [.access a])) :
    EveryAccess safe h es ∧ safe (es.foldl AccessHistory.step h) a := by
  induction es generalizing h with
  | nil => exact ⟨trivial, hes.1⟩
  | cons e es ih =>
    cases e with
    | access b => exact ⟨⟨hes.1, (ih hes.2).1⟩, (ih hes.2).2⟩
    | resolve control => exact ih hes

/-- An earlier access of an encoder, and the barriers emitted after its command. -/
structure Past (α β : Type) extends NumberedAccess α where
  emitted : List β

/-- What a resolve before the command `command` emits comes after every earlier command. -/
def Past.addEmitted (command : Nat) (emitted : List β) (p : Past α β) : Past α β :=
  if p.command < command then { p with emitted := p.emitted ++ emitted } else p

@[simp] theorem Past.addEmitted_toNumberedAccess (command : Nat) (emitted : List β) (p : Past α β) :
    (p.addEmitted command emitted).toNumberedAccess = p.toNumberedAccess := by
  unfold Past.addEmitted
  split <;> rfl

theorem Past.addEmitted_emitted {command : Nat} {p : Past α β} (h : p.command < command)
    (emitted : List β) : (p.addEmitted command emitted).emitted = p.emitted ++ emitted := by
  unfold Past.addEmitted
  rw [if_pos h]

theorem Past.mem_emitted_addEmitted {command : Nat} {emitted : List β} {p : Past α β} {b : β}
    (h : b ∈ p.emitted) : b ∈ (p.addEmitted command emitted).emitted := by
  unfold Past.addEmitted
  split
  · exact List.mem_append_left _ h
  · exact h

/-- The newest write of an encoder, with the reads after it and the accesses before it. -/
structure LastWrite (write : α → Bool) (command : Nat) (past since : List (Past α β)) (w : Past α β)
    (rest : List (Past α β)) : Prop where
  split : past = since ++ w :: rest
  reads : ∀ r ∈ since, write r.access = false
  written : write w.access = true
  since_le : ∀ r ∈ since, w.command ≤ r.command ∧ r.command ≤ command
  le : w.command ≤ command
  rest_le : ∀ p ∈ rest, p.command ≤ w.command

namespace LastWrite

variable {command : Nat} {past since rest : List (Past α β)} {w : Past α β} {a : α}

/-- A write that no later access follows. -/
theorem start (hwrite : write a = true) (hpast : ∀ p ∈ past, p.command ≤ command) :
    LastWrite write command (⟨⟨a, command⟩, []⟩ :: past) [] ⟨⟨a, command⟩, []⟩ past where
  split := rfl
  reads := fun _ hr => absurd hr List.not_mem_nil
  written := hwrite
  since_le := fun _ hr => absurd hr List.not_mem_nil
  le := le_rfl
  rest_le := hpast

theorem read (h : LastWrite write command past since w rest) (hread : write a = false) :
    LastWrite write command (⟨⟨a, command⟩, []⟩ :: past) (⟨⟨a, command⟩, []⟩ :: since) w rest where
  split := by rw [h.split, List.cons_append]
  reads := List.forall_mem_cons.mpr ⟨hread, h.reads⟩
  written := h.written
  since_le := List.forall_mem_cons.mpr ⟨⟨h.le, le_rfl⟩, h.since_le⟩
  le := h.le
  rest_le := h.rest_le

theorem resolve (h : LastWrite write command past since w rest) (emitted : List β) :
    LastWrite write (command + 1) (past.map (Past.addEmitted command emitted))
      (since.map (Past.addEmitted command emitted)) (w.addEmitted command emitted)
      (rest.map (Past.addEmitted command emitted)) where
  split := by rw [h.split, List.map_append, List.map_cons]
  reads := by simpa only [List.forall_mem_map, Past.addEmitted_toNumberedAccess] using h.reads
  written := by simpa only [Past.addEmitted_toNumberedAccess] using h.written
  since_le := by
    simp only [List.forall_mem_map, Past.addEmitted_toNumberedAccess]
    exact fun r hr => ⟨(h.since_le r hr).1, Nat.le_succ_of_le (h.since_le r hr).2⟩
  le := by simpa only [Past.addEmitted_toNumberedAccess] using Nat.le_succ_of_le h.le
  rest_le := by simpa only [List.forall_mem_map, Past.addEmitted_toNumberedAccess] using h.rest_le

theorem command_le (h : LastWrite write command past since w rest) :
    ∀ p ∈ past, p.command ≤ command := by
  rw [h.split, List.forall_mem_append, List.forall_mem_cons]
  exact ⟨fun r hr => (h.since_le r hr).2, h.le, fun p hp => (h.rest_le p hp).trans h.le⟩

/-- A write, and a read before the newest write, have a command not after it. -/
theorem write_le (h : LastWrite write command past since w rest) {p : Past α β} (hp : p ∈ past)
    (hwrite : write p.access = true) : p.command ≤ w.command := by
  rw [h.split, List.mem_append, List.mem_cons] at hp
  rcases hp with hp | rfl | hp
  · exact absurd ((h.reads p hp).symm.trans hwrite) Bool.false_ne_true
  · exact le_rfl
  · exact h.rest_le p hp

theorem mem_rest (h : LastWrite write command past [] w rest) {p : Past α β} (hp : p ∈ past)
    (hread : write p.access = false) : p ∈ rest := by
  rw [h.split, List.nil_append, List.mem_cons] at hp
  rcases hp with rfl | hp
  · exact absurd (h.written.symm.trans hread) (by decide)
  · exact hp

/-- A read before the newest write is of an earlier command, or the newest write is of this one. -/
theorem unread (h : LastWrite write command past [] w rest)
    (hunread : w.command = command ∨ ∀ p ∈ past, p.command = w.command → write p.access = true)
    {p : Past α β} (hp : p ∈ past) (hread : write p.access = false) :
    p ∈ rest ∧ (p.command < w.command ∨ w.command = command) := by
  have hrest := h.mem_rest hp hread
  refine ⟨hrest, hunread.symm.imp_left fun hwrites => ?_⟩
  refine lt_of_le_of_ne (h.rest_le p hrest) fun heq => ?_
  exact absurd ((hwrites p hp heq).symm.trans hread) (by decide)

/-- A read after the newest write that is not of its command is of a later one. -/
theorem lt_of_mem_since (h : LastWrite write command past since w rest) {r : Past α β}
    (hr : r ∈ since) (hne : r.command ≠ w.command) : w.command < command :=
  (lt_of_le_of_ne (h.since_le r hr).1 hne.symm).trans_le (h.since_le r hr).2

theorem ne_succ (h : LastWrite write command past since w rest) : w.command ≠ command + 1 :=
  Nat.ne_of_lt (Nat.lt_succ_of_le h.le)

/-- What the condition on the next access looks at. -/
theorem lastWrite?_eq (h : LastWrite write command past since w rest) :
    (AccessHistory.mk (past.map Past.toNumberedAccess) command).lastWrite? write =
      some w.toNumberedAccess := by
  have hreads : (since.map Past.toNumberedAccess).find? (fun x => write x.access) = none :=
    List.find?_eq_none.mpr (by simpa using h.reads)
  unfold AccessHistory.lastWrite?
  rw [h.split, List.map_append, List.map_cons, List.find?_append, hreads, Option.none_or]
  exact List.find?_cons_of_pos h.written

@[inherit_doc lastWrite?_eq]
theorem sinceWrite_eq (h : LastWrite write command past since w rest) :
    (AccessHistory.mk (past.map Past.toNumberedAccess) command).sinceWrite write =
      since.map Past.toNumberedAccess := by
  unfold AccessHistory.sinceWrite
  rw [h.split, List.map_append, List.map_cons, List.takeWhile_append_of_pos,
    List.takeWhile_cons_of_neg, List.append_nil]
  · simp [h.written]
  · simpa using h.reads

end LastWrite

end History

/-! ## Compute encoders -/

/-- The barrier of a compute encoder. -/
inductive ComputeBarrier where
  | memory
deriving DecidableEq

/-- `resolveComputePassBarrier`: the new state, and the emitted barriers. -/
def resolveComputePassBarrier (control : BitVec 64) (b : EncoderBarrierState) :
    EncoderBarrierState × List ComputeBarrier :=
  if barrierDue b.barrierSet control then ({ b with barrierSet := 0 }, [.memory]) else (b, [])

/-- An earlier access of a compute encoder. -/
abbrev PastDispatch := Past ResourceAccess ComputeBarrier

/-- The tracker of a compute encoder beside what has been accessed. -/
structure ComputeTrace where
  state : TrackState
  past : List PastDispatch
  command : Nat

namespace ComputeTrace

/-- A new encoder with the tracker that it begins with. -/
def start (t : GenericAccessTracker) : ComputeTrace := ⟨.start t, [], 0⟩

/-- A barrier stands before the command of the accesses made since the last resolve, and after the
commands of the others. -/
def step (id : Nat) (s : ComputeTrace) : EncoderEvent ResourceAccess → ComputeTrace
  | .access flags =>
    { s with
      state := trackCompute id s.state flags
      past := ⟨⟨flags, s.command⟩, []⟩ :: s.past }
  | .resolve control =>
    let (b, emitted) := resolveComputePassBarrier control s.state.barrierState
    { state := { s.state with barrierState := b }
      past := s.past.map (Past.addEmitted s.command emitted)
      command := s.command + 1 }

/-- The events of one resource. -/
def run (id : Nat) (t : GenericAccessTracker) (es : List (EncoderEvent ResourceAccess)) :
    ComputeTrace :=
  es.foldl (step id) (start t)

/-- What has been accessed. -/
def history (s : ComputeTrace) :
    AccessHistory ResourceAccess := ⟨s.past.map Past.toNumberedAccess, s.command⟩

theorem history_step (id : Nat) (s : ComputeTrace) (e : EncoderEvent ResourceAccess) :
    (s.step id e).history = s.history.step e := by
  cases e with
  | access a => rfl
  | resolve control => simp [step, history, AccessHistory.step, Function.comp_def]

theorem history_foldl (id : Nat) (es : List (EncoderEvent ResourceAccess)) (s : ComputeTrace) :
    (es.foldl (step id) s).history = es.foldl AccessHistory.step s.history := by
  induction es generalizing s with
  | nil => rfl
  | cons e es ih => rw [List.foldl_cons, List.foldl_cons, ih, history_step]

end ComputeTrace

/-- An access of a compute encoder that has written the resource finds a barrier for every earlier
one when: a UAV write follows no read of an earlier dispatch since the last write, nor, directly
after the last write, a read of its dispatch; a read follows no read of the dispatch of the last
write, unless it is of that dispatch too. -/
def ComputeAccessSafe (h : AccessHistory ResourceAccess) (a : ResourceAccess) : Prop :=
  ∀ w ∈ h.lastWrite? (·.write),
    (a.write = true → a.uav = true →
      (∀ r ∈ h.sinceWrite (·.write), r.command = h.command) ∧ h.Unread (·.write) w) ∧
    (a.write = false →
      w.command = h.command ∨ ∀ r ∈ h.sinceWrite (·.write), r.command ≠ w.command)

instance (h : AccessHistory ResourceAccess) (a : ResourceAccess) :
    Decidable (ComputeAccessSafe h a) :=
  inferInstanceAs (Decidable (∀ _ ∈ _, (_ → _ → _ ∧ _) ∧ (_ → _ ∨ _)))

/-- The second access `a` is covered against the earlier `p` when `b` is pending: a barrier was
emitted, or a read/write one is pending, or a write after write one for two writes, the second a
UAV write. -/
def PastDispatch.Covered (b : EncoderBarrierState) (p : PastDispatch) (a : ResourceAccess) : Prop :=
  .memory ∈ p.emitted ∨ HasBarrier kBarrierTypeRW b.barrierSet ∨
    (p.access.write = true ∧ a.write = true ∧ a.uav = true ∧
      HasBarrier kBarrierTypeWaW b.barrierSet)

/-- What one access establishes: the earlier accesses it conflicts with are covered. -/
def ComputeCovered (past : List PastDispatch) (b : EncoderBarrierState) (a : ResourceAccess) :
    Prop :=
  ∀ p ∈ past, p.access.write = true ∨ a.write = true → PastDispatch.Covered b p a

/-- A barrier was emitted since, or a read/write one is pending. -/
def PastDispatch.Guarded (b : EncoderBarrierState) (p : PastDispatch) : Prop :=
  .memory ∈ p.emitted ∨ HasBarrier kBarrierTypeRW b.barrierSet

/-- Before the first write the newest ring entry is the encoder's own read. -/
structure ComputeReading (id : Nat) (s : ComputeTrace) : Prop where
  exclusive : s.state.tracker.exclusive ≠ id
  reads : ∀ p ∈ s.past, p.access.write = false
  last : s.past ≠ [] → s.state.tracker.shared.isLastAccess id = true
  command_le : ∀ p ∈ s.past, p.command ≤ s.command

/-- From the first write on: the reader flag says whether there are reads since the last write. What
it hides is guarded. -/
structure ComputeWritten (id : Nat) (s : ComputeTrace) (since : List PastDispatch)
    (w : PastDispatch) (rest : List PastDispatch) : Prop extends
    LastWrite (·.write) s.command s.past since w rest where
  exclusive : s.state.tracker.exclusive = id
  shared : s.state.tracker.isShared = true ↔ since ≠ []
  readers : since = [] → ∀ p ∈ rest, p.access.write = false →
    p.command < w.command ∨ w.command = s.command → PastDispatch.Guarded s.state.barrierState p
  writers : since ≠ [] → w.command = s.command ∨ (∀ r ∈ since, r.command ≠ w.command) →
    ∀ p ∈ s.past, p.access.write = true → PastDispatch.Guarded s.state.barrierState p
  pending : since ≠ [] → (∀ r ∈ since, r.command = s.command) →
    HasBarrier kBarrierTypeRW s.state.barrierState.barrierSet

section Compute

variable {id : Nat} {s : ComputeTrace} {since rest : List PastDispatch} {w : PastDispatch}
  {a : ResourceAccess} {b : EncoderBarrierState}

theorem PastDispatch.Guarded.covered {p : PastDispatch} (h : Guarded b p) (a : ResourceAccess) :
    Covered b p a := h.imp_right Or.inl

/-- A resolve keeps an earlier dispatch guarded: it clears the set only with a barrier. -/
theorem PastDispatch.Guarded.resolve {p : PastDispatch} {command : Nat} (h : Guarded b p)
    (hlt : p.command < command) (control : BitVec 64) :
    Guarded (resolveComputePassBarrier control b).1
      (p.addEmitted command (resolveComputePassBarrier control b).2) := by
  unfold resolveComputePassBarrier
  split
  · refine Or.inl ?_
    rw [Past.addEmitted_emitted hlt]
    exact List.mem_append_right _ (List.mem_singleton_self _)
  · exact h.imp_left Past.mem_emitted_addEmitted

theorem isLastAccess_add (t : TrackingSet) (id : Nat) : (t.add id).2.isLastAccess id = true := by
  unfold TrackingSet.add
  split
  · next h => exact beq_iff_eq.mpr h
  · exact beq_iff_eq.mpr (Function.update_self _ _ _)

theorem ComputeReading.step_read (h : ComputeReading id s) (ha : a.write = false) :
    ComputeReading id (s.step id (.access a)) := by
  have hreads : ∀ p ∈ (s.step id (.access a)).past, p.access.write = false :=
    List.forall_mem_cons.mpr ⟨ha, h.reads⟩
  have hle : ∀ p ∈ (s.step id (.access a)).past, p.command ≤ s.command :=
    List.forall_mem_cons.mpr ⟨le_rfl, h.command_le⟩
  simp only [ComputeTrace.step, trackCompute, ha, Bool.false_eq_true, if_false, withFenceWait,
    accessShared, if_neg h.exclusive] at hreads hle ⊢
  split
  · next hlast => exact ⟨h.exclusive, hreads, fun _ => hlast, hle⟩
  · exact ⟨h.exclusive, hreads, fun _ => isLastAccess_add _ _, hle⟩

/-- The first write sees its encoder's reads through the newest ring entry. -/
theorem ComputeReading.step_write (h : ComputeReading id s) (ha : a.write = true) :
    ComputeCovered s.past (s.step id (.access a)).state.barrierState a ∧
      ComputeWritten id (s.step id (.access a)) [] ⟨⟨a, s.command⟩, []⟩ s.past := by
  have hguard : ∀ p ∈ s.past,
      PastDispatch.Guarded (s.step id (.access a)).state.barrierState p := by
    intro p hp
    have hlast := h.last (List.ne_nil_of_mem hp)
    simp only [ComputeTrace.step, trackCompute, ha, if_true, withFenceWait, accessExclusive,
      if_neg h.exclusive, if_pos hlast]
    exact Or.inr (hasBarrier_or_self kBarrierTypeRW_ne_zero)
  refine ⟨fun p hp _ => (hguard p hp).covered a, ?_⟩
  simp only [ComputeTrace.step, trackCompute, ha, if_true, withFenceWait, accessExclusive,
    if_neg h.exclusive] at hguard ⊢
  exact
    { LastWrite.start ha h.command_le with
      exclusive := rfl
      shared := ⟨fun hs => absurd hs Bool.false_ne_true, fun hne => absurd rfl hne⟩
      readers := fun _ p hp _ _ => hguard p hp
      writers := fun hne => absurd rfl hne
      pending := fun hne => absurd rfl hne }

/-- A read after a write: the flag tells whether the barrier was asked for already. -/
theorem ComputeWritten.step_read (h : ComputeWritten id s since w rest) (ha : a.write = false)
    (hsafe : w.command = s.command ∨ ∀ r ∈ since, r.command ≠ w.command) :
    ComputeCovered s.past (s.step id (.access a)).state.barrierState a ∧
      ComputeWritten id (s.step id (.access a)) (⟨⟨a, s.command⟩, []⟩ :: since) w rest := by
  -- the second of two conflicting accesses is the read, so the first one is a write
  have hwrites : ∀ p ∈ s.past, p.access.write = true ∨ a.write = true → p.access.write = true :=
    fun p _ hc => hc.resolve_right (by rw [ha]; decide)
  have hmem : ∀ p ∈ (⟨⟨a, s.command⟩, []⟩ :: s.past : List PastDispatch),
      p.access.write = true → p ∈ s.past := by
    intro p hp hw
    rcases List.mem_cons.mp hp with rfl | hp
    · exact absurd (hw.symm.trans ha) (by decide)
    · exact hp
  simp only [ComputeTrace.step, trackCompute, ha, Bool.false_eq_true, if_false, withFenceWait,
    accessShared, if_pos h.exclusive]
  cases hs : s.state.tracker.isShared with
  | true =>
    have hne := h.shared.mp hs
    rw [if_pos rfl]
    refine ⟨fun p hp hc => (h.writers hne hsafe p hp (hwrites p hp hc)).covered a, ?_⟩
    exact
      { h.toLastWrite.read ha with
        exclusive := h.exclusive
        shared := ⟨fun _ => List.cons_ne_nil _ _, fun _ => hs⟩
        readers := fun hnil => absurd hnil (List.cons_ne_nil _ _)
        writers := fun _ _ p hp hw => h.writers hne hsafe p (hmem p hp hw) hw
        pending := fun _ hall => h.pending hne (List.forall_mem_cons.mp hall).2 }
  | false =>
    rw [if_neg (by decide)]
    have hrw : HasBarrier kBarrierTypeRW
        (s.state.barrierState.orSet kBarrierTypeRW).barrierSet :=
      hasBarrier_or_self kBarrierTypeRW_ne_zero
    refine ⟨fun p _ _ => Or.inr (Or.inl hrw), ?_⟩
    exact
      { h.toLastWrite.read ha with
        exclusive := h.exclusive
        shared := ⟨fun _ => List.cons_ne_nil _ _, fun _ => rfl⟩
        readers := fun hnil => absurd hnil (List.cons_ne_nil _ _)
        writers := fun _ _ p _ _ => Or.inr hrw
        pending := fun _ _ => hrw }

/-- A write after a write: the flag is reset, and only the bit of the write is set. -/
theorem ComputeWritten.step_write (h : ComputeWritten id s since w rest) (ha : a.write = true)
    (hsafe : a.uav = true → (∀ r ∈ since, r.command = s.command) ∧ (since = [] →
      w.command = s.command ∨ ∀ p ∈ s.past, p.command = w.command → p.access.write = true)) :
    ComputeCovered s.past (s.step id (.access a)).state.barrierState a ∧
      ComputeWritten id (s.step id (.access a)) [] ⟨⟨a, s.command⟩, []⟩ s.past := by
  have hnew : HasBarrier (barrierTypeOfWrite a.uav)
      (s.state.barrierState.orSet (barrierTypeOfWrite a.uav)).barrierSet :=
    hasBarrier_or_self (barrierTypeOfWrite_ne_zero _)
  have hold : HasBarrier kBarrierTypeRW s.state.barrierState.barrierSet → HasBarrier kBarrierTypeRW
      (s.state.barrierState.orSet (barrierTypeOfWrite a.uav)).barrierSet :=
    fun h => hasBarrier_or.mpr (Or.inl h)
  -- an earlier read is guarded
  have hreads : ∀ p ∈ s.past, p.access.write = false → PastDispatch.Guarded
      (s.state.barrierState.orSet (barrierTypeOfWrite a.uav)) p := by
    intro p hp hread
    rcases hasBarrier_ofWrite hnew with hrw | ⟨huav, -⟩
    · exact Or.inr hrw
    · obtain ⟨hcurrent, hunread⟩ := hsafe huav
      by_cases hnil : since = []
      · subst hnil
        obtain ⟨hrest, hor⟩ := h.unread (hunread rfl) hp hread
        exact Or.imp_right hold (h.readers rfl p hrest hread hor)
      · exact Or.inr (hold (h.pending hnil hcurrent))
  simp only [ComputeTrace.step, trackCompute, ha, if_true, withFenceWait, accessExclusive,
    if_pos h.exclusive]
  refine ⟨fun p hp _ => ?_, ?_⟩
  · cases hp' : p.access.write with
    | false => exact (hreads p hp hp').covered a
    | true =>
      rcases hasBarrier_ofWrite hnew with hrw | ⟨huav, hwaw⟩
      · exact Or.inr (Or.inl hrw)
      · exact Or.inr (Or.inr ⟨hp', ha, huav, hwaw⟩)
  · exact
      { LastWrite.start ha h.command_le with
        exclusive := h.exclusive
        shared := ⟨fun hs => absurd hs Bool.false_ne_true, fun hne => absurd rfl hne⟩
        readers := fun _ p hp hread _ => hreads p hp hread
        writers := fun hne => absurd rfl hne
        pending := fun hne => absurd rfl hne }

/-- The phases of a compute encoder. -/
def ComputeInv (id : Nat) (s : ComputeTrace) : Prop :=
  ComputeReading id s ∨ ∃ since w rest, ComputeWritten id s since w rest

/-- **One access** that is safe is covered, and keeps the invariant. -/
theorem ComputeInv.access (h : ComputeInv id s) (hsafe : ComputeAccessSafe s.history a) :
    ComputeCovered s.past (s.step id (.access a)).state.barrierState a ∧
      ComputeInv id (s.step id (.access a)) := by
  rcases h with h | ⟨since, w, rest, h⟩
  · cases ha : a.write with
    | true => exact (h.step_write ha).imp_right fun hw => Or.inr ⟨_, _, _, hw⟩
    | false =>
      refine ⟨fun p hp hc => ?_, Or.inl (h.step_read ha)⟩
      rcases hc with hc | hc
      · exact absurd (hc.symm.trans (h.reads p hp)) (by decide)
      · exact absurd (hc.symm.trans ha) (by decide)
  · have hlast : s.history.lastWrite? (·.write) = some w.toNumberedAccess :=
      h.toLastWrite.lastWrite?_eq
    have hsince : s.history.sinceWrite (·.write) = since.map Past.toNumberedAccess :=
      h.toLastWrite.sinceWrite_eq
    obtain ⟨hwrite, hread⟩ := hsafe _ hlast
    unfold AccessHistory.Unread at hwrite
    rw [hsince] at hwrite hread
    simp only [List.forall_mem_map, List.map_eq_nil_iff, ComputeTrace.history] at hwrite hread
    cases ha : a.write with
    | true => exact (h.step_write ha (hwrite ha)).imp_right fun hw => Or.inr ⟨_, _, _, hw⟩
    | false => exact (h.step_read ha (hread ha)).imp_right fun hw => Or.inr ⟨_, _, _, hw⟩

theorem ComputeWritten.resolve (h : ComputeWritten id s since w rest) (control : BitVec 64) :
    ∃ since w rest, ComputeWritten id (s.step id (.resolve control)) since w rest := by
  refine ⟨_, _, _,
    { h.toLastWrite.resolve (resolveComputePassBarrier control s.state.barrierState).2 with
      exclusive := h.exclusive
      shared := h.shared.trans (not_congr List.map_eq_nil_iff).symm
      readers := ?_
      writers := ?_
      pending := ?_ }⟩
  · intro hnil
    rw [List.forall_mem_map]
    intro p hp hread hor
    rw [Past.addEmitted_toNumberedAccess] at hread
    rw [Past.addEmitted_toNumberedAccess, Past.addEmitted_toNumberedAccess] at hor
    have hlt := hor.resolve_right h.ne_succ
    exact (h.readers (List.map_eq_nil_iff.mp hnil) p hp hread (Or.inl hlt)).resolve
      (hlt.trans_le h.le) control
  · intro hne hor
    show ∀ p ∈ s.past.map _, _
    rw [List.forall_mem_map]
    intro p hp hwrite
    rw [Past.addEmitted_toNumberedAccess] at hwrite hor
    have hapart := hor.resolve_left h.ne_succ
    simp only [List.forall_mem_map, Past.addEmitted_toNumberedAccess] at hapart
    have hne' : since ≠ [] := fun hnil => hne (List.map_eq_nil_iff.mpr hnil)
    obtain ⟨r, hr⟩ := List.exists_mem_of_ne_nil _ hne'
    have hlt : p.command < s.command :=
      (h.write_le hp hwrite).trans_lt (h.lt_of_mem_since hr (hapart r hr))
    exact (h.writers hne' (Or.inr hapart) p hp hwrite).resolve hlt control
  · intro hne hall
    obtain ⟨r, hr⟩ := List.exists_mem_of_ne_nil _ fun hnil => hne (List.map_eq_nil_iff.mpr hnil)
    simp only [List.forall_mem_map, Past.addEmitted_toNumberedAccess] at hall
    exact absurd (hall r hr) (Nat.ne_of_lt (Nat.lt_succ_of_le (h.since_le r hr).2))

theorem ComputeInv.resolve (h : ComputeInv id s) (control : BitVec 64) :
    ComputeInv id (s.step id (.resolve control)) := by
  rcases h with h | ⟨since, w, rest, h⟩
  · refine Or.inl ⟨h.exclusive, ?_, fun hne => h.last fun hnil => hne ?_, ?_⟩
    · simpa only [ComputeTrace.step, List.forall_mem_map, Past.addEmitted_toNumberedAccess]
        using h.reads
    · exact List.map_eq_nil_iff.mpr hnil
    · simp only [ComputeTrace.step, List.forall_mem_map, Past.addEmitted_toNumberedAccess]
      exact fun p hp => Nat.le_succ_of_le (h.command_le p hp)
  · exact Or.inr (h.resolve control)

/-- The run of a compute encoder. -/
theorem ComputeInv.run {es : List (EncoderEvent ResourceAccess)} (h : ComputeInv id s)
    (hsafe : EveryAccess ComputeAccessSafe s.history es) :
    ComputeInv id (es.foldl (ComputeTrace.step id) s) := by
  induction es generalizing s with
  | nil => exact h
  | cons e es ih =>
    cases e with
    | access a =>
      exact ih (h.access hsafe.1).2 (ComputeTrace.history_step id s (.access a) ▸ hsafe.2)
    | resolve control =>
      exact ih (h.resolve control) (ComputeTrace.history_step id s (.resolve control) ▸ hsafe)

/-- Coverage in a compute encoder, whose id is new to the tracker. -/
theorem compute_covered {t : GenericAccessTracker} (ht : t.exclusive ≠ id)
    {es : List (EncoderEvent ResourceAccess)}
    (hsafe : EveryAccess ComputeAccessSafe .start (es ++ [.access a])) :
    ComputeCovered (.run id t es : ComputeTrace).past
      (.run id t (es ++ [.access a]) : ComputeTrace).state.barrierState a := by
  have hinit : ComputeInv id (.start t) :=
    Or.inl ⟨ht, fun p hp => absurd hp List.not_mem_nil, fun hne => absurd rfl hne,
      fun p hp => absurd hp List.not_mem_nil⟩
  obtain ⟨hes, ha⟩ := hsafe.append
  rw [ComputeTrace.run, ComputeTrace.run, List.foldl_append]
  refine ((hinit.run hes).access ?_).1
  rw [ComputeTrace.history_foldl]
  exact ha

end Compute

/-! ## Render encoders -/

/-- The barriers of a render encoder, one for each set. The last one is never emitted. -/
inductive RenderBarrier where
  | tile
  | preRaster
  | fragmentAfterPreRaster
  | preRasterAfterFragment
deriving DecidableEq

/-- Of two stages of one draw, `s` does not come after `t`. -/
def RenderStage.NotAfter (s t : RenderStage) : Prop := s = .preRaster ∨ t = .fragment

namespace RenderBarrier

/-- `stages_after`: what the barrier waits for. -/
def stagesAfter : RenderBarrier → RenderStage
  | tile | preRasterAfterFragment => .fragment
  | preRaster | fragmentAfterPreRaster => .preRaster

/-- `stages_before`: what waits. -/
def stagesBefore : RenderBarrier → RenderStage
  | tile | fragmentAfterPreRaster => .fragment
  | preRaster | preRasterAfterFragment => .preRaster

/-- The barrier orders stage `s₀` of an earlier draw before stage `s₁` of a later one. -/
def Covers (k : RenderBarrier) (s₀ s₁ : RenderStage) : Prop :=
  s₀.NotAfter k.stagesAfter ∧ k.stagesBefore.NotAfter s₁

end RenderBarrier

/-- The set that asks for a barrier. -/
def EncoderBarrierState.pending (b : EncoderBarrierState) : RenderBarrier → BitVec 2
  | .tile => b.barrierSet
  | .preRaster => b.barrierPreRasterSet
  | .fragmentAfterPreRaster => b.barrierFragmentAfterPreRasterSet
  | .preRasterAfterFragment => b.barrierPreRasterAfterFragmentSet

/-- `resolveRenderPassBarrier`: the new state, and the emitted barriers. -/
def resolveRenderPassBarrier (control : BitVec 64) (b : EncoderBarrierState) :
    EncoderBarrierState × List RenderBarrier :=
  if barrierDue b.barrierPreRasterAfterFragmentSet control then
    -- "A fragment-vertex barrier is omitted"
    (⟨0, 0, 0, 0⟩, [])
  else
    let r := (b, [])
    let r := if barrierDue r.1.barrierSet control then
      ({ r.1 with barrierSet := 0 }, r.2 ++ [.tile]) else r
    let r := if barrierDue r.1.barrierPreRasterSet control then
      ({ r.1 with barrierPreRasterSet := 0 }, r.2 ++ [.preRaster]) else r
    if barrierDue r.1.barrierFragmentAfterPreRasterSet control then
      ({ r.1 with barrierFragmentAfterPreRasterSet := 0 }, r.2 ++ [.fragmentAfterPreRaster]) else r

/-- An earlier access of a render encoder. -/
abbrev PastDraw := Past RenderAccess RenderBarrier

/-- The tracker of a render encoder beside what has been accessed. -/
structure RenderTrace where
  state : TrackState
  past : List PastDraw
  command : Nat

namespace RenderTrace

/-- A new encoder with the tracker that it begins with. -/
def start (t : GenericAccessTracker) : RenderTrace := ⟨.start t, [], 0⟩

/-- The barriers stand before the command of the accesses made since the last resolve. -/
def step (v : Nat) (s : RenderTrace) : EncoderEvent RenderAccess → RenderTrace
  | .access a =>
    { s with state := trackRender v s.state a, past := ⟨⟨a, s.command⟩, []⟩ :: s.past }
  | .resolve control =>
    let (b, emitted) := resolveRenderPassBarrier control s.state.barrierState
    { state := { s.state with barrierState := b }
      past := s.past.map (Past.addEmitted s.command emitted)
      command := s.command + 1 }

/-- The events of one resource. -/
def run (v : Nat) (t : GenericAccessTracker) (es : List (EncoderEvent RenderAccess)) :
    RenderTrace :=
  es.foldl (step v) (start t)

/-- What has been accessed. -/
def history (s : RenderTrace) :
    AccessHistory RenderAccess := ⟨s.past.map Past.toNumberedAccess, s.command⟩

theorem history_step (v : Nat) (s : RenderTrace) (e : EncoderEvent RenderAccess) :
    (s.step v e).history = s.history.step e := by
  cases e with
  | access a => rfl
  | resolve control => simp [step, history, AccessHistory.step, Function.comp_def]

theorem history_foldl (v : Nat) (es : List (EncoderEvent RenderAccess)) (s : RenderTrace) :
    (es.foldl (step v) s).history = es.foldl AccessHistory.step s.history := by
  induction es generalizing s with
  | nil => rfl
  | cons e es ih => rw [List.foldl_cons, List.foldl_cons, ih, history_step]

end RenderTrace

/-- A pre-raster access conflicts with an earlier fragment access. -/
def Backward (a₀ a₁ : RenderAccess) : Prop :=
  a₀.stage = .fragment ∧ a₁.stage = .preRaster ∧ (a₀.flags.write = true ∨ a₁.flags.write = true)

instance (a₀ a₁ : RenderAccess) : Decidable (Backward a₀ a₁) :=
  inferInstanceAs (Decidable (_ ∧ _ ∧ _))

/-- An access of a render encoder finds a barrier for every earlier one when it conflicts with no
access of a later stage, and when: a UAV write directly after the last write follows no read of the
draw of that write; a read follows no pre-raster read of that draw, nor, at the fragment stage, a
fragment read of it without a pre-raster read of a later draw; all that unless it is of that draw
too. -/
def RenderAccessSafe (h : AccessHistory RenderAccess) (a : RenderAccess) : Prop :=
  (∀ x ∈ h.accesses, ¬Backward x.access a) ∧
  ∀ w ∈ h.lastWrite? (·.flags.write),
    (a.flags.write = true → a.flags.uav = true → h.Unread (·.flags.write) w) ∧
    (a.flags.write = false → w.command = h.command ∨
      (∀ r ∈ h.sinceWrite (·.flags.write), r.access.stage = .preRaster → r.command ≠ w.command) ∧
      (a.stage = .fragment →
        (∃ r ∈ h.sinceWrite (·.flags.write), r.access.stage = .preRaster) ∨
          ∀ r ∈ h.sinceWrite (·.flags.write), r.command ≠ w.command))

instance (h : AccessHistory RenderAccess) (a : RenderAccess) : Decidable (RenderAccessSafe h a) :=
  inferInstanceAs (Decidable ((∀ _ ∈ _, ¬_) ∧ ∀ _ ∈ _, (_ → _ → _) ∧
    (_ → _ ∨ (∀ _ ∈ _, _ → _) ∧ (_ → (∃ _ ∈ _, _) ∨ ∀ _ ∈ _, _))))

/-- The second access `a` is covered against the earlier `p` when `b` is pending: by a barrier that
was emitted, a pending read/write one, or a pending write after write one for two writes, the
second a UAV write. -/
def PastDraw.Covered (b : EncoderBarrierState) (p : PastDraw) (a : RenderAccess) : Prop :=
  ∃ k : RenderBarrier, k.Covers p.access.stage a.stage ∧
    (k ∈ p.emitted ∨ HasBarrier kBarrierTypeRW (b.pending k) ∨
      (p.access.flags.write = true ∧ a.flags.write = true ∧ a.flags.uav = true ∧
        HasBarrier kBarrierTypeWaW (b.pending k)))

/-- What one access establishes: the earlier accesses it conflicts with are covered. -/
def RenderCovered (past : List PastDraw) (b : EncoderBarrierState) (a : RenderAccess) : Prop :=
  ∀ p ∈ past, p.access.flags.write = true ∨ a.flags.write = true → PastDraw.Covered b p a

/-- An access at stage `s₁` would be behind a barrier that was emitted, or a pending read/write
one. -/
def PastDraw.Guarded (b : EncoderBarrierState) (p : PastDraw) (s₁ : RenderStage) : Prop :=
  ∃ k : RenderBarrier, k.Covers p.access.stage s₁ ∧
    (k ∈ p.emitted ∨ HasBarrier kBarrierTypeRW (b.pending k))

/-- Before the first write: the newest ring entry and the flags tell the own reads. -/
structure Reading (v : Nat) (s : RenderTrace) : Prop where
  exclusive : s.state.tracker.exclusive < v
  reads : ∀ p ∈ s.past, p.access.flags.write = false
  command_le : ∀ p ∈ s.past, p.command ≤ s.command
  last :
    (s.state.tracker.shared.isLastAccess (v + 1) = false ∧
      s.state.tracker.shared.isLastAccess v = false ∧ s.past = []) ∨
    (s.state.tracker.shared.isLastAccess (v + 1) = false ∧
      s.state.tracker.shared.isLastAccess v = true ∧ s.state.tracker.isSharedPreRaster = true ∧
      s.state.tracker.isShared = false ∧ ∀ p ∈ s.past, p.access.stage = .preRaster) ∨
    (s.state.tracker.shared.isLastAccess (v + 1) = true ∧
      s.state.tracker.isShared = true ∧ (∃ p ∈ s.past, p.access.stage = .fragment) ∧
      ((∃ p ∈ s.past, p.access.stage = .preRaster) → s.state.tracker.isSharedPreRaster = true))

/-- The last write was at the pre-raster stage: the flags say whether there are reads of each stage
since. What they hide is guarded. -/
structure PreRasterWritten (v : Nat) (s : RenderTrace) (since : List PastDraw) (w : PastDraw)
    (rest : List PastDraw) : Prop extends
    LastWrite (·.flags.write) s.command s.past since w rest where
  exclusive : s.state.tracker.exclusive = v
  before : ∀ p ∈ w :: rest, p.access.stage = .preRaster
  sharedPreRaster : s.state.tracker.isSharedPreRaster = true ↔
    ∃ r ∈ since, r.access.stage = .preRaster
  shared : s.state.tracker.isShared = true ↔ ∃ r ∈ since, r.access.stage = .fragment
  readers : since = [] → ∀ p ∈ rest, p.access.flags.write = false →
    p.command < w.command ∨ w.command = s.command →
      PastDraw.Guarded s.state.barrierState p .preRaster
  writersPreRaster : (∃ r ∈ since, r.access.stage = .preRaster) →
    w.command = s.command ∨
        (∀ r ∈ since, r.access.stage = .preRaster → r.command ≠ w.command) →
      ∀ p ∈ s.past, p.access.flags.write = true →
        PastDraw.Guarded s.state.barrierState p .preRaster
  writersFragment : since ≠ [] → (∀ r ∈ since, r.access.stage = .fragment) →
    w.command = s.command ∨ (∀ r ∈ since, r.command ≠ w.command) →
      ∀ p ∈ s.past, p.access.flags.write = true →
        PastDraw.Guarded s.state.barrierState p .fragment

/-- The last write was at the fragment stage: no pre-raster access follows any more. -/
structure FragmentWritten (v : Nat) (s : RenderTrace) (since : List PastDraw) (w : PastDraw)
    (rest : List PastDraw) : Prop extends
    LastWrite (·.flags.write) s.command s.past since w rest where
  exclusive : s.state.tracker.exclusive = v + 1
  last : s.state.tracker.lastWriteFromPreRaster = false
  noPreRaster : s.state.tracker.isSharedPreRaster = false
  stage : w.access.stage = .fragment
  stageSince : ∀ r ∈ since, r.access.stage = .fragment
  shared : s.state.tracker.isShared = true ↔ since ≠ []
  readers : since = [] → ∀ p ∈ rest, p.access.flags.write = false →
    p.command < w.command ∨ w.command = s.command →
      PastDraw.Guarded s.state.barrierState p .fragment
  writers : since ≠ [] → w.command = s.command ∨ (∀ r ∈ since, r.command ≠ w.command) →
    ∀ p ∈ s.past, p.access.flags.write = true →
      PastDraw.Guarded s.state.barrierState p .fragment

/-- The phases of a render encoder, as long as no access goes backward. -/
structure RenderInv (v : Nat) (s : RenderTrace) : Prop where
  forward : s.state.barrierState.barrierPreRasterAfterFragmentSet = 0
  phase : Reading v s ∨ (∃ since w rest, PreRasterWritten v s since w rest) ∨
    ∃ since w rest, FragmentWritten v s since w rest

/-! ### Pending and emitted barriers -/

section Guarded

variable {p : PastDraw} {s₁ : RenderStage} {b b' : EncoderBarrierState}

theorem covers_preRaster (s₁ : RenderStage) : RenderBarrier.Covers .preRaster .preRaster s₁ :=
  ⟨Or.inl rfl, Or.inl rfl⟩

theorem covers_fragmentAfterPreRaster :
    RenderBarrier.Covers .fragmentAfterPreRaster .preRaster .fragment :=
  ⟨Or.inl rfl, Or.inr rfl⟩

theorem covers_tile (s₀ : RenderStage) : RenderBarrier.Covers .tile s₀ .fragment :=
  ⟨Or.inr rfl, Or.inr rfl⟩

/-- Pending read/write bits are kept. -/
def Grows (b b' : EncoderBarrierState) : Prop :=
  ∀ k, HasBarrier kBarrierTypeRW (b.pending k) → HasBarrier kBarrierTypeRW (b'.pending k)

theorem grows_orSet (b : EncoderBarrierState) (x : BitVec 2) : Grows b (b.orSet x) := by
  intro k h
  cases k <;> first | exact h | exact hasBarrier_or.mpr (Or.inl h)

theorem grows_orPreRaster (b : EncoderBarrierState) (x : BitVec 2) : Grows b (b.orPreRaster x) := by
  intro k h
  cases k <;> first | exact h | exact hasBarrier_or.mpr (Or.inl h)

theorem grows_orFragmentAfterPreRaster (b : EncoderBarrierState) (x : BitVec 2) :
    Grows b (b.orFragmentAfterPreRaster x) := by
  intro k h
  cases k <;> first | exact h | exact hasBarrier_or.mpr (Or.inl h)

theorem PastDraw.Guarded.mono (h : Guarded b p s₁) (hb : Grows b b') : Guarded b' p s₁ := by
  obtain ⟨k, hk, hp⟩ := h
  exact ⟨k, hk, hp.imp_right (hb k)⟩

/-- What is behind a barrier at the pre-raster stage is so at the fragment stage. -/
theorem PastDraw.Guarded.fragment (h : Guarded b p .preRaster) : Guarded b p .fragment := by
  obtain ⟨k, hk, hp⟩ := h
  exact ⟨k, ⟨hk.1, Or.inr rfl⟩, hp⟩

theorem PastDraw.Guarded.covered {a : RenderAccess} (h : Guarded b p s₁) (ha : a.stage = s₁) :
    Covered b p a := by
  obtain ⟨k, hk, hp⟩ := h
  exact ⟨k, ha ▸ hk, hp.imp_right Or.inl⟩

theorem guarded_of_pending {k : RenderBarrier} (hk : k.Covers p.access.stage s₁)
    (h : HasBarrier kBarrierTypeRW (b.pending k)) : PastDraw.Guarded b p s₁ := ⟨k, hk, Or.inr h⟩

/-- The bit of a write covers it against every earlier write. -/
theorem covered_of_writeBit {k : RenderBarrier} {a : RenderAccess}
    (hk : k.Covers p.access.stage a.stage) (hp : p.access.flags.write = true)
    (ha : a.flags.write = true) (h : HasBarrier (barrierTypeOfWrite a.flags.uav) (b.pending k)) :
    PastDraw.Covered b p a := by
  rcases hasBarrier_ofWrite h with hrw | ⟨huav, hwaw⟩
  · exact ⟨k, hk, Or.inr (Or.inl hrw)⟩
  · exact ⟨k, hk, Or.inr (Or.inr ⟨hp, ha, huav, hwaw⟩)⟩

/-- The pending set of the barrier a write asks for after readers. -/
theorem rw_orPreRaster (b : EncoderBarrierState) :
    HasBarrier kBarrierTypeRW ((b.orPreRaster kBarrierTypeRW).pending .preRaster) :=
  hasBarrier_or_self kBarrierTypeRW_ne_zero

@[inherit_doc rw_orPreRaster]
theorem rw_orSet (b : EncoderBarrierState) :
    HasBarrier kBarrierTypeRW ((b.orSet kBarrierTypeRW).pending .tile) :=
  hasBarrier_or_self kBarrierTypeRW_ne_zero

@[inherit_doc rw_orPreRaster]
theorem rw_orFragmentAfterPreRaster (b : EncoderBarrierState) :
    HasBarrier kBarrierTypeRW
      ((b.orFragmentAfterPreRaster kBarrierTypeRW).pending .fragmentAfterPreRaster) :=
  hasBarrier_or_self kBarrierTypeRW_ne_zero

end Guarded

/-! ### One access, by phase -/

section Step

variable {v : Nat} {s : RenderTrace} {a : RenderAccess} {since rest : List PastDraw} {w : PastDraw}

theorem not_isLastAccess_of {t : TrackingSet} {x y : Nat} (h : t.isLastAccess x = true)
    (hne : x ≠ y) : t.isLastAccess y = false := by
  have hx : t.storage t.cursor = x := beq_iff_eq.mp h
  exact beq_eq_false_iff_ne.mpr (hx ▸ hne)

/-- A read conflicts with no earlier read. -/
theorem Reading.covered_read (h : Reading v s) (hf : a.flags.write = false)
    (b : EncoderBarrierState) : RenderCovered s.past b a := by
  intro p hp hc
  rcases hc with hc | hc
  · exact absurd (hc.symm.trans (h.reads p hp)) (by decide)
  · exact absurd (hc.symm.trans hf) (by decide)

theorem Reading.reads_cons (h : Reading v s) (hf : a.flags.write = false) :
    (∀ p ∈ (⟨⟨a, s.command⟩, []⟩ :: s.past : List PastDraw), p.access.flags.write = false) ∧
      ∀ p ∈ (⟨⟨a, s.command⟩, []⟩ :: s.past : List PastDraw), p.command ≤ s.command :=
  ⟨List.forall_mem_cons.mpr ⟨hf, h.reads⟩, List.forall_mem_cons.mpr ⟨le_rfl, h.command_le⟩⟩

theorem Reading.step_readPreRaster (h : Reading v s) (ha : a.stage = .preRaster)
    (hf : a.flags.write = false) :
    Reading v (s.step v (.access a)) ∧
      (s.step v (.access a)).state.barrierState = s.state.barrierState := by
  have hlt := h.exclusive
  have hw : ¬ s.state.tracker.exclusive = v + 1 := by omega
  have hv : ¬ s.state.tracker.exclusive = v := by omega
  obtain ⟨hreads, hle⟩ := h.reads_cons hf
  have hstage : ∀ {past : List PastDraw}, (∀ p ∈ past, p.access.stage = .preRaster) →
      ∀ p ∈ (⟨⟨a, s.command⟩, []⟩ :: past : List PastDraw), p.access.stage = .preRaster :=
    fun hpast => List.forall_mem_cons.mpr ⟨ha, hpast⟩
  simp only [RenderTrace.step, trackRender, ha, hf, Bool.false_eq_true, if_false,
    withFenceWaitVertex, accessSharedPreRaster, if_neg hw, if_neg hv]
  rcases h.last with ⟨h1, h2, h3⟩ | ⟨h1, h2, h3, h4, h5⟩ | ⟨h1, h2, h3, h4⟩
  · have hadd := isLastAccess_add s.state.tracker.shared v
    rw [if_neg (by rw [h1]; decide), if_neg (by rw [h2]; decide)]
    refine ⟨⟨hlt, hreads, hle, Or.inr (Or.inl ⟨not_isLastAccess_of hadd (by omega), hadd, rfl, rfl,
      hstage fun p hp => ?_⟩)⟩, rfl⟩
    rw [h3] at hp
    exact absurd hp List.not_mem_nil
  · rw [if_neg (by rw [h1]; decide), if_pos h2]
    exact ⟨⟨hlt, hreads, hle, Or.inr (Or.inl ⟨h1, h2, h3, h4, hstage h5⟩)⟩, rfl⟩
  · rw [if_pos h1]
    obtain ⟨q, hq, hqf⟩ := h3
    split
    · next hsp =>
      exact ⟨⟨hlt, hreads, hle, Or.inr (Or.inr ⟨h1, h2, ⟨q, List.mem_cons_of_mem _ hq, hqf⟩,
        fun _ => hsp⟩)⟩, rfl⟩
    · exact ⟨⟨hlt, hreads, hle, Or.inr (Or.inr ⟨h1, h2, ⟨q, List.mem_cons_of_mem _ hq, hqf⟩,
        fun _ => rfl⟩)⟩, rfl⟩

theorem Reading.step_readFragment (h : Reading v s) (ha : a.stage = .fragment)
    (hf : a.flags.write = false) :
    Reading v (s.step v (.access a)) ∧
      (s.step v (.access a)).state.barrierState = s.state.barrierState := by
  have hlt := h.exclusive
  have hw : ¬ s.state.tracker.exclusive = v + 1 := by omega
  have hv : ¬ s.state.tracker.exclusive = v := by omega
  obtain ⟨hreads, hle⟩ := h.reads_cons hf
  have hadd := isLastAccess_add s.state.tracker.shared (v + 1)
  have hself : ∀ past : List PastDraw, ∃ p ∈ (⟨⟨a, s.command⟩, []⟩ :: past : List PastDraw),
      p.access.stage = .fragment := fun past => ⟨_, List.mem_cons_self .., ha⟩
  -- a pre-raster read of the new list is one of the old list
  have hold : (∃ p ∈ (⟨⟨a, s.command⟩, []⟩ :: s.past : List PastDraw),
      p.access.stage = .preRaster) → ∃ p ∈ s.past, p.access.stage = .preRaster := by
    rintro ⟨p, hp, hpre⟩
    rcases List.mem_cons.mp hp with rfl | hp
    · exact absurd (ha.symm.trans hpre) (by decide)
    · exact ⟨p, hp, hpre⟩
  simp only [RenderTrace.step, trackRender, ha, hf, Bool.false_eq_true, if_false,
    withFenceWait, accessSharedFragment, if_neg hw, Nat.add_sub_cancel, if_neg hv]
  rcases h.last with ⟨h1, h2, h3⟩ | ⟨h1, h2, h3, h4, h5⟩ | ⟨h1, h2, h3, h4⟩
  · rw [if_neg (by rw [h1]; decide)]
    refine ⟨⟨hlt, hreads, hle, Or.inr (Or.inr ⟨hadd, rfl, hself _, fun hpre => ?_⟩)⟩, rfl⟩
    obtain ⟨p, hp, -⟩ := hold hpre
    rw [h3] at hp
    exact absurd hp List.not_mem_nil
  · rw [if_neg (by rw [h1]; decide)]
    refine ⟨⟨hlt, hreads, hle, Or.inr (Or.inr ⟨hadd, rfl, hself _, fun _ => ?_⟩)⟩, rfl⟩
    exact (if_pos h2).trans h3
  · rw [if_pos h1]
    exact ⟨⟨hlt, hreads, hle, Or.inr (Or.inr ⟨h1, h2, hself _, fun hpre => h4 (hold hpre)⟩)⟩, rfl⟩

/-- The writes are the old ones after a read. -/
theorem mem_of_write_cons {past : List PastDraw} {p : PastDraw} {command : Nat}
    (hf : a.flags.write = false) (hp : p ∈ (⟨⟨a, command⟩, []⟩ :: past : List PastDraw))
    (hw : p.access.flags.write = true) : p ∈ past := by
  rcases List.mem_cons.mp hp with rfl | hp
  · exact absurd (hw.symm.trans hf) (by decide)
  · exact hp

/-- No earlier access is at the fragment stage, if a pre-raster write may follow. -/
theorem stage_of_forward (hn : ∀ p ∈ s.past, ¬ Backward p.access a) (ha : a.stage = .preRaster)
    (hf : a.flags.write = true) : ∀ p ∈ s.past, p.access.stage = .preRaster := by
  intro p hp
  cases hst : p.access.stage with
  | preRaster => rfl
  | fragment => exact absurd ⟨hst, ha, Or.inr hf⟩ (hn p hp)

/-- The phase after a pre-raster write `a` that leaves the flags off and the earlier reads guarded.
-/
theorem PreRasterWritten.start {t : TrackState} (hle : ∀ p ∈ s.past, p.command ≤ s.command)
    (hstage : ∀ p ∈ s.past, p.access.stage = .preRaster) (ha : a.stage = .preRaster)
    (hf : a.flags.write = true) (hexclusive : t.tracker.exclusive = v)
    (hshared : t.tracker.isShared = false) (hpre : t.tracker.isSharedPreRaster = false)
    (h0 : t.barrierState.barrierPreRasterAfterFragmentSet = 0)
    (hg : ∀ p ∈ s.past, p.access.flags.write = false →
      PastDraw.Guarded t.barrierState p .preRaster) :
    RenderInv v ⟨t, ⟨⟨a, s.command⟩, []⟩ :: s.past, s.command⟩ := by
  have hnone (stage : RenderStage) : ¬∃ r ∈ ([] : List PastDraw), r.access.stage = stage := by
    rintro ⟨r, hr, -⟩
    exact absurd hr List.not_mem_nil
  have hlast : LastWrite (·.flags.write) s.command (⟨⟨a, s.command⟩, []⟩ :: s.past) []
      ⟨⟨a, s.command⟩, []⟩ s.past := .start hf hle
  exact ⟨h0, Or.inr (Or.inl ⟨[], ⟨⟨a, s.command⟩, []⟩, s.past,
    { hlast with
      exclusive := hexclusive
      before := List.forall_mem_cons.mpr ⟨ha, hstage⟩
      sharedPreRaster := iff_of_false (by rw [hpre]; decide) (hnone _)
      shared := iff_of_false (by rw [hshared]; decide) (hnone _)
      readers := fun _ p hp hr _ => hg p hp hr
      writersPreRaster := fun hr => absurd hr (hnone _)
      writersFragment := fun hne => absurd rfl hne }⟩)⟩

/-- The phase after a fragment write `a` that leaves the flags off and the earlier reads guarded. -/
theorem FragmentWritten.start {t : TrackState} (hle : ∀ p ∈ s.past, p.command ≤ s.command)
    (ha : a.stage = .fragment) (hf : a.flags.write = true)
    (hexclusive : t.tracker.exclusive = v + 1) (hlast : t.tracker.lastWriteFromPreRaster = false)
    (hshared : t.tracker.isShared = false) (hpre : t.tracker.isSharedPreRaster = false)
    (h0 : t.barrierState.barrierPreRasterAfterFragmentSet = 0)
    (hg : ∀ p ∈ s.past, p.access.flags.write = false →
      PastDraw.Guarded t.barrierState p .fragment) :
    RenderInv v ⟨t, ⟨⟨a, s.command⟩, []⟩ :: s.past, s.command⟩ := by
  have hstart : LastWrite (·.flags.write) s.command (⟨⟨a, s.command⟩, []⟩ :: s.past) []
      ⟨⟨a, s.command⟩, []⟩ s.past := .start hf hle
  exact ⟨h0, Or.inr (Or.inr ⟨[], ⟨⟨a, s.command⟩, []⟩, s.past,
    { hstart with
      exclusive := hexclusive
      last := hlast
      noPreRaster := hpre
      stage := ha
      stageSince := fun _ hr => absurd hr List.not_mem_nil
      shared := iff_of_false (by rw [hshared]; decide) (fun hne => hne rfl)
      readers := fun _ p hp hr _ => hg p hp hr
      writers := fun hne => absurd rfl hne }⟩)⟩

theorem Reading.step_writePreRaster (h : Reading v s) (hn : ∀ p ∈ s.past, ¬ Backward p.access a)
    (ha : a.stage = .preRaster) (hf : a.flags.write = true)
    (h0 : s.state.barrierState.barrierPreRasterAfterFragmentSet = 0) :
    RenderCovered s.past (s.step v (.access a)).state.barrierState a ∧
      RenderInv v (s.step v (.access a)) := by
  have hlt := h.exclusive
  have hw : ¬ s.state.tracker.exclusive = v + 1 := by omega
  have hv : ¬ s.state.tracker.exclusive = v := by omega
  have hstage := stage_of_forward hn ha hf
  -- all that is left to show is that the reads are guarded
  have finish {t : TrackState} (h1 : t.tracker.exclusive = v) (h2 : t.tracker.isShared = false)
      (h3 : t.tracker.isSharedPreRaster = false)
      (h4 : t.barrierState.barrierPreRasterAfterFragmentSet = 0)
      (hg : ∀ p ∈ s.past, PastDraw.Guarded t.barrierState p .preRaster) :
      RenderInv v ⟨t, ⟨⟨a, s.command⟩, []⟩ :: s.past, s.command⟩ ∧
        RenderCovered s.past t.barrierState a :=
    ⟨PreRasterWritten.start h.command_le hstage ha hf h1 h2 h3 h4 fun p hp _ => hg p hp,
      fun p hp _ => (hg p hp).covered ha⟩
  simp only [RenderTrace.step, trackRender, ha, hf, if_true, withFenceWaitVertex,
    accessExclusivePreRaster, if_neg hw, if_neg hv]
  rcases h.last with ⟨h1, h2, h3⟩ | ⟨h1, h2, h3, h4, h5⟩ | ⟨h1, h2, ⟨q, hq, hqf⟩, h4⟩
  · rw [if_neg (by rw [h1, h2]; decide)]
    refine And.symm <| finish rfl rfl rfl h0 fun p hp => ?_
    rw [h3] at hp
    exact absurd hp List.not_mem_nil
  · rw [if_pos (by rw [h2, Bool.or_true])]
    simp only [barrierAfterReadersPreRaster, h3, h4, if_true, Bool.false_eq_true, if_false]
    exact And.symm <| finish rfl rfl rfl h0 fun p hp =>
      guarded_of_pending (h5 p hp ▸ covers_preRaster _) (rw_orPreRaster _)
  · exact absurd (hqf.symm.trans (hstage q hq)) (by decide)

theorem Reading.step_writeFragment (h : Reading v s) (ha : a.stage = .fragment)
    (hf : a.flags.write = true) (h0 : s.state.barrierState.barrierPreRasterAfterFragmentSet = 0) :
    RenderCovered s.past (s.step v (.access a)).state.barrierState a ∧
      RenderInv v (s.step v (.access a)) := by
  have hlt := h.exclusive
  have hw : ¬ s.state.tracker.exclusive = v + 1 := by omega
  have hv : ¬ s.state.tracker.exclusive = v := by omega
  have finish {t : TrackState} (h1 : t.tracker.exclusive = v + 1)
      (h2 : t.tracker.lastWriteFromPreRaster = false) (h3 : t.tracker.isShared = false)
      (h4 : t.tracker.isSharedPreRaster = false)
      (h5 : t.barrierState.barrierPreRasterAfterFragmentSet = 0)
      (hg : ∀ p ∈ s.past, PastDraw.Guarded t.barrierState p .fragment) :
      RenderInv v ⟨t, ⟨⟨a, s.command⟩, []⟩ :: s.past, s.command⟩ ∧
        RenderCovered s.past t.barrierState a :=
    ⟨FragmentWritten.start h.command_le ha hf h1 h2 h3 h4 h5 fun p hp _ => hg p hp,
      fun p hp _ => (hg p hp).covered ha⟩
  simp only [RenderTrace.step, trackRender, ha, hf, if_true, withFenceWait,
    accessExclusiveFragment, if_neg hw, Nat.add_sub_cancel, if_neg hv]
  rcases h.last with ⟨h1, h2, h3⟩ | ⟨h1, h2, h3, h4, h5⟩ | ⟨h1, h2, -, -⟩
  · rw [if_neg (by rw [h1, h2]; decide)]
    refine And.symm <| finish rfl rfl rfl rfl h0 fun p hp => ?_
    rw [h3] at hp
    exact absurd hp List.not_mem_nil
  · rw [if_pos (by rw [h2, Bool.or_true])]
    simp only [barrierAfterReadersFragment, h3, h4, if_true, Bool.false_eq_true, if_false]
    exact And.symm <| finish rfl rfl rfl rfl h0 fun p hp =>
      guarded_of_pending (h5 p hp ▸ covers_fragmentAfterPreRaster) (rw_orFragmentAfterPreRaster _)
  · -- a fragment read: the tile barrier covers the pre-raster reads too
    rw [if_pos (by rw [h1, Bool.true_or])]
    simp only [barrierAfterReadersFragment, h2, if_true]
    refine And.symm <| finish rfl rfl rfl rfl ?_ fun p hp => guarded_of_pending (covers_tile _)
        (rw_orSet _)
    split <;> exact h0

theorem PreRasterWritten.not_fragmentId (h : PreRasterWritten v s since w rest) :
    ¬ s.state.tracker.exclusive = v + 1 := by
  have := h.exclusive
  omega

/-- The writes were at the pre-raster stage. -/
theorem PreRasterWritten.stage_of_write (h : PreRasterWritten v s since w rest) {p : PastDraw}
    (hp : p ∈ s.past) (hw : p.access.flags.write = true) : p.access.stage = .preRaster := by
  rw [h.split, List.mem_append] at hp
  rcases hp with hp | hp
  · exact absurd ((h.reads p hp).symm.trans hw) (by decide)
  · exact h.before p hp

/-- Without a read since the last write all accesses were at the pre-raster stage. -/
theorem PreRasterWritten.stage (h : PreRasterWritten v s since w rest)
    (hsince : ∀ r ∈ since, r.access.stage = .preRaster) :
    ∀ p ∈ s.past, p.access.stage = .preRaster := by
  rw [h.split, List.forall_mem_append]
  exact ⟨hsince, h.before⟩

/-- The first read of a stage asks for a barrier, and the later ones stand behind it. -/
theorem PreRasterWritten.step_readPreRaster (h : PreRasterWritten v s since w rest)
    (ha : a.stage = .preRaster) (hf : a.flags.write = false)
    (hsafe : w.command = s.command ∨
      ∀ r ∈ since, r.access.stage = .preRaster → r.command ≠ w.command)
    (h0 : s.state.barrierState.barrierPreRasterAfterFragmentSet = 0) :
    RenderCovered s.past (s.step v (.access a)).state.barrierState a ∧
      RenderInv v (s.step v (.access a)) := by
  have hnew : ∃ r ∈ (⟨⟨a, s.command⟩, []⟩ :: since : List PastDraw),
      r.access.stage = .preRaster := ⟨_, List.mem_cons_self .., ha⟩
  have hfragment : (∃ r ∈ since, r.access.stage = .fragment) ↔
      ∃ r ∈ (⟨⟨a, s.command⟩, []⟩ :: since : List PastDraw), r.access.stage = .fragment := by
    rw [List.exists_mem_cons_iff, or_iff_right (by rw [ha]; decide)]
  -- all that is left to show is that the writes are guarded
  have finish {t : TrackState} (h1 : t.tracker.exclusive = v)
      (h2 : t.tracker.isShared = s.state.tracker.isShared)
      (h3 : t.tracker.isSharedPreRaster = true)
      (h4 : t.barrierState.barrierPreRasterAfterFragmentSet = 0)
      (hg : ∀ p ∈ s.past, p.access.flags.write = true →
        PastDraw.Guarded t.barrierState p .preRaster) :
      RenderInv v ⟨t, ⟨⟨a, s.command⟩, []⟩ :: s.past, s.command⟩ ∧
        RenderCovered s.past t.barrierState a := by
    refine And.symm ⟨fun p hp hc => (hg p hp (hc.resolve_right (by rw [hf]; decide))).covered ha,
      h4, Or.inr (Or.inl ⟨⟨⟨a, s.command⟩, []⟩ :: since, w, rest,
      { h.toLastWrite.read hf with
        exclusive := h1
        before := h.before
        sharedPreRaster := iff_of_true h3 hnew
        shared := (h2 ▸ h.shared).trans hfragment
        readers := fun hnil => absurd hnil (List.cons_ne_nil _ _)
        writersPreRaster := fun _ _ p hp hw => hg p (mem_of_write_cons hf hp hw) hw
        writersFragment := fun _ hall => ?_ }⟩)⟩
    exact absurd (ha.symm.trans (hall _ (List.mem_cons_self ..))) (by decide)
  simp only [RenderTrace.step, trackRender, ha, hf, Bool.false_eq_true, if_false,
    withFenceWaitVertex, accessSharedPreRaster, if_neg h.not_fragmentId, if_pos h.exclusive]
  cases hsp : s.state.tracker.isSharedPreRaster with
  | true =>
    rw [if_pos rfl]
    exact And.symm <| finish h.exclusive rfl hsp h0
        (h.writersPreRaster (h.sharedPreRaster.mp hsp) hsafe)
  | false =>
    rw [if_neg Bool.false_ne_true]
    exact And.symm <| finish h.exclusive rfl rfl h0 fun p hp hw =>
      guarded_of_pending (h.stage_of_write hp hw ▸ covers_preRaster _) (rw_orPreRaster _)

theorem PreRasterWritten.step_readFragment (h : PreRasterWritten v s since w rest)
    (ha : a.stage = .fragment) (hf : a.flags.write = false)
    (hsafe : w.command = s.command ∨
      (∀ r ∈ since, r.access.stage = .preRaster → r.command ≠ w.command) ∧
        ((∃ r ∈ since, r.access.stage = .preRaster) ∨ ∀ r ∈ since, r.command ≠ w.command))
    (h0 : s.state.barrierState.barrierPreRasterAfterFragmentSet = 0) :
    RenderCovered s.past (s.step v (.access a)).state.barrierState a ∧
      RenderInv v (s.step v (.access a)) := by
  have hpreRaster : (∃ r ∈ (⟨⟨a, s.command⟩, []⟩ :: since : List PastDraw),
      r.access.stage = .preRaster) ↔ ∃ r ∈ since, r.access.stage = .preRaster := by
    rw [List.exists_mem_cons_iff, or_iff_right (by rw [ha]; decide)]
  -- a pre-raster read since the last write asked for a barrier that holds back this read too
  have hafter (hr : ∃ r ∈ since, r.access.stage = .preRaster) : ∀ p ∈ s.past,
      p.access.flags.write = true → PastDraw.Guarded s.state.barrierState p .fragment :=
    fun p hp hw => (h.writersPreRaster hr (hsafe.imp_right And.left) p hp hw).fragment
  have finish {t : TrackState} (h1 : t.tracker.exclusive = v) (h2 : t.tracker.isShared = true)
      (h3 : t.tracker.isSharedPreRaster = s.state.tracker.isSharedPreRaster)
      (h4 : t.barrierState.barrierPreRasterAfterFragmentSet = 0)
      (hgrow : Grows s.state.barrierState t.barrierState)
      (hg : ∀ p ∈ s.past, p.access.flags.write = true →
        PastDraw.Guarded t.barrierState p .fragment) :
      RenderInv v ⟨t, ⟨⟨a, s.command⟩, []⟩ :: s.past, s.command⟩ ∧
        RenderCovered s.past t.barrierState a := by
    refine And.symm ⟨fun p hp hc => (hg p hp (hc.resolve_right (by rw [hf]; decide))).covered ha,
      h4, Or.inr (Or.inl ⟨⟨⟨a, s.command⟩, []⟩ :: since, w, rest,
      { h.toLastWrite.read hf with
        exclusive := h1
        before := h.before
        sharedPreRaster := (h3 ▸ h.sharedPreRaster).trans hpreRaster.symm
        shared := iff_of_true h2 ⟨_, List.mem_cons_self .., ha⟩
        readers := fun hnil => absurd hnil (List.cons_ne_nil _ _)
        writersPreRaster := fun hr hor p hp hw => ?_
        writersFragment := fun _ _ _ p hp hw => hg p (mem_of_write_cons hf hp hw) hw }⟩)⟩
    refine (h.writersPreRaster (hpreRaster.mp hr) (hor.imp_right fun hall r hr => ?_) p
      (mem_of_write_cons hf hp hw) hw).mono hgrow
    exact hall r (List.mem_cons_of_mem _ hr)
  simp only [RenderTrace.step, trackRender, ha, hf, Bool.false_eq_true, if_false,
    withFenceWait, accessSharedFragment, if_neg h.not_fragmentId, Nat.add_sub_cancel,
    if_pos h.exclusive]
  cases hs : s.state.tracker.isShared with
  | true =>
    rw [if_pos rfl]
    refine And.symm <| finish h.exclusive hs rfl h0 (fun _ hb => hb) ?_
    by_cases hr : ∃ r ∈ since, r.access.stage = .preRaster
    · exact hafter hr
    · have hall : ∀ r ∈ since, r.access.stage = .fragment := by
        intro r hmem
        cases hst : r.access.stage with
        | fragment => rfl
        | preRaster => exact absurd ⟨r, hmem, hst⟩ hr
      obtain ⟨r, hmem, -⟩ := h.shared.mp hs
      exact h.writersFragment (List.ne_nil_of_mem hmem) hall
        (hsafe.imp_right fun hor => hor.2.resolve_left hr)
  | false =>
    rw [if_neg Bool.false_ne_true]
    cases hsp : s.state.tracker.isSharedPreRaster with
    | true =>
      -- the implicit barrier: the pre-raster read has asked for one already
      exact And.symm <| finish h.exclusive rfl hsp.symm h0 (fun _ hb =>
          hb) (hafter (h.sharedPreRaster.mp hsp))
    | false =>
      exact And.symm <| finish h.exclusive rfl hsp.symm h0 (grows_orFragmentAfterPreRaster _ _)
        fun p hp hw => guarded_of_pending (h.stage_of_write hp hw ▸ covers_fragmentAfterPreRaster)
          (rw_orFragmentAfterPreRaster _)

/-- Where the flags are off there is no read since the last write. -/
theorem PreRasterWritten.since_eq_nil (h : PreRasterWritten v s since w rest)
    (hs : s.state.tracker.isShared = false) (hsp : s.state.tracker.isSharedPreRaster = false) :
    since = [] := by
  refine List.eq_nil_iff_forall_not_mem.mpr fun r hr => ?_
  cases hst : r.access.stage with
  | preRaster => exact absurd (hsp.symm.trans (h.sharedPreRaster.mpr ⟨r, hr, hst⟩)) (by decide)
  | fragment => exact absurd (hs.symm.trans (h.shared.mpr ⟨r, hr, hst⟩)) (by decide)

/-- The earlier reads are guarded when a write follows the last write directly. -/
theorem PreRasterWritten.guarded_read (h : PreRasterWritten v s since w rest) (hnil : since = [])
    (hsafe : w.command = s.command ∨
      ∀ p ∈ s.past, p.command = w.command → p.access.flags.write = true) :
    ∀ p ∈ s.past, p.access.flags.write = false →
      PastDraw.Guarded s.state.barrierState p .preRaster := by
  subst hnil
  intro p hp hread
  obtain ⟨hrest, hor⟩ := h.unread hsafe hp hread
  exact h.readers rfl p hrest hread hor

theorem PreRasterWritten.step_writePreRaster (h : PreRasterWritten v s since w rest)
    (hn : ∀ p ∈ s.past, ¬ Backward p.access a) (ha : a.stage = .preRaster)
    (hf : a.flags.write = true)
    (hsafe : a.flags.uav = true → since = [] → w.command = s.command ∨
      ∀ p ∈ s.past, p.command = w.command → p.access.flags.write = true)
    (h0 : s.state.barrierState.barrierPreRasterAfterFragmentSet = 0) :
    RenderCovered s.past (s.step v (.access a)).state.barrierState a ∧
      RenderInv v (s.step v (.access a)) := by
  have hstage := stage_of_forward hn ha hf
  have hs : s.state.tracker.isShared = false := by
    cases hs : s.state.tracker.isShared with
    | false => rfl
    | true =>
      obtain ⟨r, hr, hst⟩ := h.shared.mp hs
      have hmem : r ∈ s.past := by
        rw [h.split]
        exact List.mem_append_left _ hr
      exact absurd (hst.symm.trans (hstage r hmem)) (by decide)
  have finish {t : TrackState} (h1 : t.tracker.exclusive = v) (h2 : t.tracker.isShared = false)
      (h3 : t.tracker.isSharedPreRaster = false)
      (h4 : t.barrierState.barrierPreRasterAfterFragmentSet = 0)
      (hg : ∀ p ∈ s.past, p.access.flags.write = false →
        PastDraw.Guarded t.barrierState p .preRaster)
      (hw : ∀ p ∈ s.past, p.access.flags.write = true → PastDraw.Covered t.barrierState p a) :
      RenderInv v ⟨t, ⟨⟨a, s.command⟩, []⟩ :: s.past, s.command⟩ ∧
        RenderCovered s.past t.barrierState a := by
    refine ⟨PreRasterWritten.start h.command_le hstage ha hf h1 h2 h3 h4 hg, fun p hp _ => ?_⟩
    cases hp' : p.access.flags.write with
    | false => exact (hg p hp hp').covered ha
    | true => exact hw p hp hp'
  simp only [RenderTrace.step, trackRender, ha, hf, if_true, withFenceWaitVertex,
    accessExclusivePreRaster, if_neg h.not_fragmentId, if_pos h.exclusive,
    barrierAfterReadersPreRaster, hs, Bool.not_false, Bool.true_and, Bool.false_eq_true, if_false]
  cases hsp : s.state.tracker.isSharedPreRaster with
  | true =>
    simp only [Bool.not_true, Bool.false_eq_true, if_false, if_true]
    have hguard : ∀ p ∈ s.past,
        PastDraw.Guarded (s.state.barrierState.orPreRaster kBarrierTypeRW) p .preRaster :=
      fun p hp => guarded_of_pending (hstage p hp ▸ covers_preRaster _) (rw_orPreRaster _)
    exact And.symm <| finish rfl rfl rfl h0 (fun p hp _ => hguard p hp) fun p hp _ =>
        (hguard p hp).covered ha
  | false =>
    simp only [Bool.not_false, Bool.false_eq_true, if_false, if_true]
    have hbit : HasBarrier (barrierTypeOfWrite a.flags.uav)
        ((s.state.barrierState.orPreRaster (barrierTypeOfWrite a.flags.uav)).pending .preRaster) :=
      hasBarrier_or_self (barrierTypeOfWrite_ne_zero _)
    have hk (p : PastDraw) (hp : p ∈ s.past) :
        RenderBarrier.Covers .preRaster p.access.stage .preRaster :=
      hstage p hp ▸ covers_preRaster _
    refine And.symm <| finish rfl rfl rfl h0 (fun p hp hread => ?_) fun p hp hw =>
      covered_of_writeBit (k := .preRaster) (ha ▸ hk p hp) hw hf hbit
    rcases hasBarrier_ofWrite hbit with hrw | ⟨huav, -⟩
    · exact guarded_of_pending (hk p hp) hrw
    · have hnil := h.since_eq_nil hs hsp
      exact (h.guarded_read hnil (hsafe huav hnil) p hp hread).mono (grows_orPreRaster _ _)

theorem PreRasterWritten.step_writeFragment (h : PreRasterWritten v s since w rest)
    (ha : a.stage = .fragment) (hf : a.flags.write = true)
    (hsafe : a.flags.uav = true → since = [] → w.command = s.command ∨
      ∀ p ∈ s.past, p.command = w.command → p.access.flags.write = true)
    (h0 : s.state.barrierState.barrierPreRasterAfterFragmentSet = 0) :
    RenderCovered s.past (s.step v (.access a)).state.barrierState a ∧
      RenderInv v (s.step v (.access a)) := by
  have finish {t : TrackState} (h1 : t.tracker.exclusive = v + 1)
      (h2 : t.tracker.lastWriteFromPreRaster = false) (h3 : t.tracker.isShared = false)
      (h4 : t.tracker.isSharedPreRaster = false)
      (h5 : t.barrierState.barrierPreRasterAfterFragmentSet = 0)
      (hg : ∀ p ∈ s.past, p.access.flags.write = false →
        PastDraw.Guarded t.barrierState p .fragment)
      (hw : ∀ p ∈ s.past, p.access.flags.write = true → PastDraw.Covered t.barrierState p a) :
      RenderInv v ⟨t, ⟨⟨a, s.command⟩, []⟩ :: s.past, s.command⟩ ∧
        RenderCovered s.past t.barrierState a := by
    refine ⟨FragmentWritten.start h.command_le ha hf h1 h2 h3 h4 h5 hg, fun p hp _ => ?_⟩
    cases hp' : p.access.flags.write with
    | false => exact (hg p hp hp').covered ha
    | true => exact hw p hp hp'
  simp only [RenderTrace.step, trackRender, ha, hf, if_true, withFenceWait,
    accessExclusiveFragment, if_neg h.not_fragmentId, Nat.add_sub_cancel, if_pos h.exclusive,
    barrierAfterReadersFragment]
  cases hs : s.state.tracker.isShared with
  | true =>
    -- a fragment read: the tile barrier covers everything
    simp only [Bool.not_true, Bool.false_and, Bool.false_eq_true, if_false, if_true]
    have hguard (b : EncoderBarrierState) (p : PastDraw) :
        PastDraw.Guarded (b.orSet kBarrierTypeRW) p .fragment :=
      guarded_of_pending (covers_tile _) (rw_orSet b)
    refine And.symm <| finish rfl rfl rfl rfl ?_ (fun p _ _ => hguard _ p) fun p _ _ =>
        (hguard _ p).covered ha
    split <;> exact h0
  | false =>
    -- then all accesses were at the pre-raster stage
    have hstage := h.stage fun r hr => by
      cases hst : r.access.stage with
      | preRaster => rfl
      | fragment => exact absurd (hs.symm.trans (h.shared.mpr ⟨r, hr, hst⟩)) (by decide)
    cases hsp : s.state.tracker.isSharedPreRaster with
    | true =>
      simp only [Bool.not_true, Bool.and_false, Bool.false_eq_true, if_false, if_true]
      have hguard : ∀ p ∈ s.past, PastDraw.Guarded
          (s.state.barrierState.orFragmentAfterPreRaster kBarrierTypeRW) p .fragment :=
        fun p hp => guarded_of_pending (hstage p hp ▸ covers_fragmentAfterPreRaster)
          (rw_orFragmentAfterPreRaster _)
      exact And.symm <| finish rfl rfl rfl rfl h0 (fun p hp _ => hguard p hp)
        fun p hp _ => (hguard p hp).covered ha
    | false =>
      simp only [Bool.not_false, Bool.and_true, if_true]
      have hbit : HasBarrier (barrierTypeOfWrite a.flags.uav)
          ((s.state.barrierState.orFragmentAfterPreRaster
            (barrierTypeOfWrite a.flags.uav)).pending .fragmentAfterPreRaster) :=
        hasBarrier_or_self (barrierTypeOfWrite_ne_zero _)
      have hk (p : PastDraw) (hp : p ∈ s.past) :
          RenderBarrier.Covers .fragmentAfterPreRaster p.access.stage .fragment :=
        hstage p hp ▸ covers_fragmentAfterPreRaster
      refine And.symm <| finish rfl rfl rfl rfl h0 (fun p hp hread => ?_) fun p hp hw =>
        covered_of_writeBit (k := .fragmentAfterPreRaster) (ha ▸ hk p hp) hw hf hbit
      rcases hasBarrier_ofWrite hbit with hrw | ⟨huav, -⟩
      · exact guarded_of_pending (hk p hp) hrw
      · have hnil := h.since_eq_nil hs hsp
        exact (h.guarded_read hnil (hsafe huav hnil) p hp hread).fragment.mono
          (grows_orFragmentAfterPreRaster _ _)

/-- No pre-raster access follows a fragment write. -/
theorem FragmentWritten.stage_of_forward (h : FragmentWritten v s since w rest)
    (hn : ∀ p ∈ s.past, ¬ Backward p.access a) : a.stage = .fragment := by
  have hmem : w ∈ s.past := by
    rw [h.split]
    exact List.mem_append_right _ (List.mem_cons_self ..)
  cases ha : a.stage with
  | fragment => rfl
  | preRaster => exact absurd ⟨h.stage, ha, Or.inl h.written⟩ (hn w hmem)

theorem FragmentWritten.step_read (h : FragmentWritten v s since w rest) (ha : a.stage = .fragment)
    (hf : a.flags.write = false)
    (hsafe : w.command = s.command ∨ ∀ r ∈ since, r.command ≠ w.command)
    (h0 : s.state.barrierState.barrierPreRasterAfterFragmentSet = 0) :
    RenderCovered s.past (s.step v (.access a)).state.barrierState a ∧
      RenderInv v (s.step v (.access a)) := by
  have finish {t : TrackState} (h1 : t.tracker.exclusive = v + 1)
      (h2 : t.tracker.lastWriteFromPreRaster = false) (h3 : t.tracker.isShared = true)
      (h4 : t.tracker.isSharedPreRaster = false)
      (h5 : t.barrierState.barrierPreRasterAfterFragmentSet = 0)
      (hg : ∀ p ∈ s.past, p.access.flags.write = true →
        PastDraw.Guarded t.barrierState p .fragment) :
      RenderInv v ⟨t, ⟨⟨a, s.command⟩, []⟩ :: s.past, s.command⟩ ∧
        RenderCovered s.past t.barrierState a :=
    And.symm ⟨fun p hp hc => (hg p hp (hc.resolve_right (by rw [hf]; decide))).covered ha,
      h5, Or.inr (Or.inr ⟨⟨⟨a, s.command⟩, []⟩ :: since, w, rest,
      { h.toLastWrite.read hf with
        exclusive := h1
        last := h2
        noPreRaster := h4
        stage := h.stage
        stageSince := List.forall_mem_cons.mpr ⟨ha, h.stageSince⟩
        shared := iff_of_true h3 (List.cons_ne_nil _ _)
        readers := fun hnil => absurd hnil (List.cons_ne_nil _ _)
        writers := fun _ _ p hp hw => hg p (mem_of_write_cons hf hp hw) hw }⟩)⟩
  simp only [RenderTrace.step, trackRender, ha, hf, Bool.false_eq_true, if_false,
    withFenceWait, accessSharedFragment, if_pos h.exclusive]
  cases hs : s.state.tracker.isShared with
  | true =>
    rw [if_pos rfl]
    exact And.symm <| finish h.exclusive h.last hs h.noPreRaster h0
        (h.writers (h.shared.mp hs) hsafe)
  | false =>
    simp only [h.noPreRaster, h.last, Bool.false_eq_true, if_false]
    exact And.symm <| finish h.exclusive rfl rfl rfl h0 fun p _ _ =>
      guarded_of_pending (covers_tile _) (rw_orSet _)

theorem FragmentWritten.step_write (h : FragmentWritten v s since w rest) (ha : a.stage = .fragment)
    (hf : a.flags.write = true)
    (hsafe : a.flags.uav = true → since = [] → w.command = s.command ∨
      ∀ p ∈ s.past, p.command = w.command → p.access.flags.write = true)
    (h0 : s.state.barrierState.barrierPreRasterAfterFragmentSet = 0) :
    RenderCovered s.past (s.step v (.access a)).state.barrierState a ∧
      RenderInv v (s.step v (.access a)) := by
  have finish {t : TrackState} (h1 : t.tracker.exclusive = v + 1)
      (h2 : t.tracker.lastWriteFromPreRaster = false) (h3 : t.tracker.isShared = false)
      (h4 : t.tracker.isSharedPreRaster = false)
      (h5 : t.barrierState.barrierPreRasterAfterFragmentSet = 0)
      (hg : ∀ p ∈ s.past, p.access.flags.write = false →
        PastDraw.Guarded t.barrierState p .fragment)
      (hw : ∀ p ∈ s.past, p.access.flags.write = true → PastDraw.Covered t.barrierState p a) :
      RenderInv v ⟨t, ⟨⟨a, s.command⟩, []⟩ :: s.past, s.command⟩ ∧
        RenderCovered s.past t.barrierState a := by
    refine ⟨FragmentWritten.start h.command_le ha hf h1 h2 h3 h4 h5 hg, fun p hp _ => ?_⟩
    cases hp' : p.access.flags.write with
    | false => exact (hg p hp hp').covered ha
    | true => exact hw p hp hp'
  simp only [RenderTrace.step, trackRender, ha, hf, if_true, withFenceWait,
    accessExclusiveFragment, if_pos h.exclusive, barrierAfterReadersFragment, h.noPreRaster,
    h.last, Bool.not_false, Bool.and_true, Bool.false_eq_true, if_false]
  cases hs : s.state.tracker.isShared with
  | true =>
    simp only [Bool.not_true, Bool.false_eq_true, if_false, if_true]
    have hguard (p : PastDraw) :
        PastDraw.Guarded (s.state.barrierState.orSet kBarrierTypeRW) p .fragment :=
      guarded_of_pending (covers_tile _) (rw_orSet _)
    exact And.symm <| finish rfl rfl rfl rfl h0 (fun p _ _ => hguard p) fun p _ _ =>
        (hguard p).covered ha
  | false =>
    simp only [Bool.not_false, if_true]
    have hbit : HasBarrier (barrierTypeOfWrite a.flags.uav)
        ((s.state.barrierState.orSet (barrierTypeOfWrite a.flags.uav)).pending .tile) :=
      hasBarrier_or_self (barrierTypeOfWrite_ne_zero _)
    refine And.symm <| finish rfl rfl rfl rfl h0 (fun p hp hread => ?_) fun p hp hw =>
      covered_of_writeBit (k := .tile) (ha ▸ covers_tile _) hw hf hbit
    rcases hasBarrier_ofWrite hbit with hrw | ⟨huav, -⟩
    · exact guarded_of_pending (covers_tile _) hrw
    · have hnil : since = [] := by
        by_contra hne
        exact absurd (hs.symm.trans (h.shared.mpr hne)) (by decide)
      subst hnil
      obtain ⟨hrest, hor⟩ := h.unread (hsafe huav rfl) hp hread
      exact (h.readers rfl p hrest hread hor).mono (grows_orSet _ _)

/-- What the condition says of the split. -/
theorem RenderAccessSafe.split (hsafe : RenderAccessSafe s.history a)
    (h : LastWrite (·.flags.write) s.command s.past since w rest) :
    (a.flags.write = true → a.flags.uav = true → since = [] → w.command = s.command ∨
      ∀ p ∈ s.past, p.command = w.command → p.access.flags.write = true) ∧
    (a.flags.write = false → w.command = s.command ∨
      (∀ r ∈ since, r.access.stage = .preRaster → r.command ≠ w.command) ∧
      (a.stage = .fragment → (∃ r ∈ since, r.access.stage = .preRaster) ∨
        ∀ r ∈ since, r.command ≠ w.command)) := by
  have hlast : s.history.lastWrite? (·.flags.write) = some w.toNumberedAccess := h.lastWrite?_eq
  have hsince : s.history.sinceWrite (·.flags.write) = since.map Past.toNumberedAccess :=
    h.sinceWrite_eq
  have hw := hsafe.2 _ hlast
  unfold AccessHistory.Unread at hw
  rw [hsince] at hw
  simp only [List.forall_mem_map, List.map_eq_nil_iff, RenderTrace.history] at hw
  simpa only [List.mem_map, exists_exists_and_eq_and] using hw

theorem RenderAccessSafe.forward (hsafe : RenderAccessSafe s.history a) :
    ∀ p ∈ s.past, ¬Backward p.access a := by
  simpa only [RenderTrace.history, List.forall_mem_map] using hsafe.1

/-- **One access** that is safe is covered, and keeps the invariant. -/
theorem RenderInv.access (h : RenderInv v s) (hsafe : RenderAccessSafe s.history a) :
    RenderCovered s.past (s.step v (.access a)).state.barrierState a ∧
      RenderInv v (s.step v (.access a)) := by
  have h0 := h.forward
  have hn := hsafe.forward
  rcases h.phase with h | ⟨since, w, rest, h⟩ | ⟨since, w, rest, h⟩
  · cases hf : a.flags.write with
    | false =>
      refine ⟨h.covered_read hf _, ?_⟩
      cases ha : a.stage with
      | preRaster =>
        obtain ⟨hstep, hb⟩ := h.step_readPreRaster ha hf
        exact ⟨hb ▸ h0, Or.inl hstep⟩
      | fragment =>
        obtain ⟨hstep, hb⟩ := h.step_readFragment ha hf
        exact ⟨hb ▸ h0, Or.inl hstep⟩
    | true =>
      cases ha : a.stage with
      | preRaster => exact h.step_writePreRaster hn ha hf h0
      | fragment => exact h.step_writeFragment ha hf h0
  · obtain ⟨hwrite, hread⟩ := hsafe.split h.toLastWrite
    cases hf : a.flags.write with
    | false =>
      cases ha : a.stage with
      | preRaster => exact h.step_readPreRaster ha hf ((hread hf).imp_right And.left) h0
      | fragment =>
        exact h.step_readFragment ha hf ((hread hf).imp_right fun hor => ⟨hor.1, hor.2 ha⟩) h0
    | true =>
      cases ha : a.stage with
      | preRaster => exact h.step_writePreRaster hn ha hf (hwrite hf) h0
      | fragment => exact h.step_writeFragment ha hf (hwrite hf) h0
  · obtain ⟨hwrite, hread⟩ := hsafe.split h.toLastWrite
    have ha := h.stage_of_forward hn
    cases hf : a.flags.write with
    | false =>
      refine h.step_read ha hf ((hread hf).imp_right fun hor => (hor.2 ha).resolve_left ?_) h0
      rintro ⟨r, hr, hst⟩
      exact absurd (hst.symm.trans (h.stageSince r hr)) (by decide)
    | true => exact h.step_write ha hf (hwrite hf) h0

end Step

/-! ### Resolving -/

section Resolve

variable {v : Nat} {s : RenderTrace} {since rest : List PastDraw} {w : PastDraw}
  {b : EncoderBarrierState}

/-- With no backward barrier pending, a set is emitted or kept. -/
theorem resolve_pending (control : BitVec 64) (h0 : b.barrierPreRasterAfterFragmentSet = 0)
    (k : RenderBarrier) :
    ((resolveRenderPassBarrier control b).1.pending k = b.pending k ∧
      barrierDue (b.pending k) control = false) ∨
    k ∈ (resolveRenderPassBarrier control b).2 := by
  have hdue : ¬ barrierDue b.barrierPreRasterAfterFragmentSet control = true := by
    rw [h0, barrierDue_zero]
    decide
  rw [resolveRenderPassBarrier, if_neg hdue]
  by_cases h1 : barrierDue b.barrierSet control = true <;>
    by_cases h2 : barrierDue b.barrierPreRasterSet control = true <;>
      by_cases h3 : barrierDue b.barrierFragmentAfterPreRasterSet control = true <;>
        cases k <;> simp_all [EncoderBarrierState.pending]

theorem resolve_forward {control : BitVec 64} (h0 : b.barrierPreRasterAfterFragmentSet = 0) :
    (resolveRenderPassBarrier control b).1.barrierPreRasterAfterFragmentSet = 0 := by
  have hdue : ¬ barrierDue b.barrierPreRasterAfterFragmentSet control = true := by
    rw [h0, barrierDue_zero]
    decide
  rw [resolveRenderPassBarrier, if_neg hdue]
  dsimp only
  split_ifs <;> exact h0

/-- A resolve keeps an access of an earlier draw guarded: what is no longer pending was emitted. -/
theorem PastDraw.Guarded.resolve {p : PastDraw} {s₁ : RenderStage} {command : Nat}
    (h : Guarded b p s₁) (h0 : b.barrierPreRasterAfterFragmentSet = 0) (hlt : p.command < command)
    (control : BitVec 64) :
    Guarded (resolveRenderPassBarrier control b).1
      (p.addEmitted command (resolveRenderPassBarrier control b).2) s₁ := by
  obtain ⟨k, hk, hp⟩ := h
  refine ⟨k, by rwa [Past.addEmitted_toNumberedAccess], ?_⟩
  rcases hp with hp | hp
  · exact Or.inl (Past.mem_emitted_addEmitted hp)
  · rcases resolve_pending control h0 k with ⟨hkeep, -⟩ | hem
    · exact Or.inr (hkeep ▸ hp)
    · refine Or.inl ?_
      rw [Past.addEmitted_emitted hlt]
      exact List.mem_append_right _ hem

theorem Reading.resolve (h : Reading v s) (control : BitVec 64) :
    Reading v (s.step v (.resolve control)) := by
  refine ⟨h.exclusive, ?_, ?_, ?_⟩
  · simpa only [RenderTrace.step, List.forall_mem_map, Past.addEmitted_toNumberedAccess]
      using h.reads
  · simp only [RenderTrace.step, List.forall_mem_map, Past.addEmitted_toNumberedAccess]
    exact fun p hp => Nat.le_succ_of_le (h.command_le p hp)
  · simpa only [RenderTrace.step, List.mem_map, exists_exists_and_eq_and, forall_exists_index,
      and_imp, forall_apply_eq_imp_iff₂, List.map_eq_nil_iff, Past.addEmitted_toNumberedAccess]
      using h.last

/-- What no longer holds after a resolve is that the last write is of the coming command. -/
theorem PreRasterWritten.resolve (h : PreRasterWritten v s since w rest)
    (h0 : s.state.barrierState.barrierPreRasterAfterFragmentSet = 0) (control : BitVec 64) :
    ∃ since w rest, PreRasterWritten v (s.step v (.resolve control)) since w rest := by
  refine ⟨_, _, _,
    { h.toLastWrite.resolve (resolveRenderPassBarrier control s.state.barrierState).2 with
      exclusive := h.exclusive
      before := ?_
      sharedPreRaster := ?_
      shared := ?_
      readers := ?_
      writersPreRaster := ?_
      writersFragment := ?_ }⟩
  · simpa only [← List.map_cons, List.forall_mem_map, Past.addEmitted_toNumberedAccess]
      using h.before
  · simpa only [RenderTrace.step, List.mem_map, exists_exists_and_eq_and,
      Past.addEmitted_toNumberedAccess] using h.sharedPreRaster
  · simpa only [RenderTrace.step, List.mem_map, exists_exists_and_eq_and,
      Past.addEmitted_toNumberedAccess] using h.shared
  · simp only [List.map_eq_nil_iff, List.forall_mem_map, Past.addEmitted_toNumberedAccess]
    intro hnil p hp hread hor
    have hlt := hor.resolve_right h.ne_succ
    exact (h.readers hnil p hp hread (Or.inl hlt)).resolve h0 (hlt.trans_le h.le) control
  · simp only [RenderTrace.step, List.mem_map, exists_exists_and_eq_and, forall_exists_index,
      and_imp, forall_apply_eq_imp_iff₂, Past.addEmitted_toNumberedAccess]
    intro r hr hst hor p hp hwrite
    have hapart := hor.resolve_left h.ne_succ
    exact (h.writersPreRaster ⟨r, hr, hst⟩ (Or.inr hapart) p hp hwrite).resolve h0
      ((h.write_le hp hwrite).trans_lt (h.lt_of_mem_since hr (hapart r hr hst))) control
  · simp only [RenderTrace.step, List.forall_mem_map, ne_eq, List.map_eq_nil_iff,
      Past.addEmitted_toNumberedAccess]
    intro hne hall hor p hp hwrite
    have hapart := hor.resolve_left h.ne_succ
    obtain ⟨r, hr⟩ := List.exists_mem_of_ne_nil _ hne
    exact (h.writersFragment hne hall (Or.inr hapart) p hp hwrite).resolve h0
      ((h.write_le hp hwrite).trans_lt (h.lt_of_mem_since hr (hapart r hr))) control

@[inherit_doc PreRasterWritten.resolve]
theorem FragmentWritten.resolve (h : FragmentWritten v s since w rest)
    (h0 : s.state.barrierState.barrierPreRasterAfterFragmentSet = 0) (control : BitVec 64) :
    ∃ since w rest, FragmentWritten v (s.step v (.resolve control)) since w rest := by
  refine ⟨_, _, _,
    { h.toLastWrite.resolve (resolveRenderPassBarrier control s.state.barrierState).2 with
      exclusive := h.exclusive
      last := h.last
      noPreRaster := h.noPreRaster
      stage := by rw [Past.addEmitted_toNumberedAccess]; exact h.stage
      stageSince := by
        simpa only [List.forall_mem_map, Past.addEmitted_toNumberedAccess] using h.stageSince
      shared := h.shared.trans (not_congr List.map_eq_nil_iff).symm
      readers := ?_
      writers := ?_ }⟩
  · simp only [List.map_eq_nil_iff, List.forall_mem_map, Past.addEmitted_toNumberedAccess]
    intro hnil p hp hread hor
    have hlt := hor.resolve_right h.ne_succ
    exact (h.readers hnil p hp hread (Or.inl hlt)).resolve h0 (hlt.trans_le h.le) control
  · simp only [RenderTrace.step, List.forall_mem_map, ne_eq, List.map_eq_nil_iff,
      Past.addEmitted_toNumberedAccess]
    intro hne hor p hp hwrite
    have hapart := hor.resolve_left h.ne_succ
    obtain ⟨r, hr⟩ := List.exists_mem_of_ne_nil _ hne
    exact (h.writers hne (Or.inr hapart) p hp hwrite).resolve h0
      ((h.write_le hp hwrite).trans_lt (h.lt_of_mem_since hr (hapart r hr))) control

theorem RenderInv.resolve (h : RenderInv v s) (control : BitVec 64) :
    RenderInv v (s.step v (.resolve control)) := by
  refine ⟨resolve_forward h.forward, ?_⟩
  rcases h.phase with hphase | ⟨since, w, rest, hphase⟩ | ⟨since, w, rest, hphase⟩
  · exact Or.inl (hphase.resolve control)
  · exact Or.inr (Or.inl (hphase.resolve h.forward control))
  · exact Or.inr (Or.inr (hphase.resolve h.forward control))

/-- The run of a render encoder. -/
theorem RenderInv.run {es : List (EncoderEvent RenderAccess)} (h : RenderInv v s)
    (hsafe : EveryAccess RenderAccessSafe s.history es) :
    RenderInv v (es.foldl (RenderTrace.step v) s) := by
  induction es generalizing s with
  | nil => exact h
  | cons e es ih =>
    cases e with
    | access a =>
      exact ih (h.access hsafe.1).2 (RenderTrace.history_step v s (.access a) ▸ hsafe.2)
    | resolve control =>
      exact ih (h.resolve control) (RenderTrace.history_step v s (.resolve control) ▸ hsafe)

end Resolve

/-- The tracker knows only earlier encoders than `v`. -/
structure OlderThan (v : Nat) (t : GenericAccessTracker) : Prop where
  exclusive : t.exclusive < v
  shared : t.shared.storage t.shared.cursor < v

/-- Coverage in a render encoder, whose ids are new to the tracker. -/
theorem render_covered {v : Nat} {t : GenericAccessTracker} (ht : OlderThan v t)
    {es : List (EncoderEvent RenderAccess)} {a : RenderAccess}
    (hsafe : EveryAccess RenderAccessSafe .start (es ++ [.access a])) :
    RenderCovered (.run v t es : RenderTrace).past
        (.run v t (es ++ [.access a]) : RenderTrace).state.barrierState a ∧
      RenderInv v (.run v t (es ++ [.access a])) := by
  have hsh := ht.shared
  have hinit : RenderInv v (.start t) := by
    refine ⟨rfl, Or.inl ⟨ht.exclusive, fun p hp => absurd hp List.not_mem_nil,
      fun p hp => absurd hp List.not_mem_nil, Or.inl ⟨?_, ?_, rfl⟩⟩⟩
    · exact beq_eq_false_iff_ne.mpr (Nat.ne_of_lt (Nat.lt_succ_of_lt hsh))
    · exact beq_eq_false_iff_ne.mpr (Nat.ne_of_lt hsh)
  obtain ⟨hes, ha⟩ := hsafe.append
  rw [RenderTrace.run, RenderTrace.run, List.foldl_append]
  refine (hinit.run hes).access ?_
  rw [RenderTrace.history_foldl]
  exact ha

/-! ## Coverage -/

section Coverage

variable {b : EncoderBarrierState} {control : BitVec 64}

/-- A read and a write of a compute encoder are ordered once `control` resolves `b`. -/
def ComputeOrdered (past : List PastDispatch) (b : EncoderBarrierState) (control : BitVec 64)
    (a : ResourceAccess) : Prop :=
  ∀ p ∈ past, p.access.write ≠ a.write →
    .memory ∈ p.emitted ∨ .memory ∈ (resolveComputePassBarrier control b).2

/-- A read and a write of a render encoder are ordered once `control` resolves `b`. -/
def RenderOrdered (past : List PastDraw) (b : EncoderBarrierState) (control : BitVec 64)
    (a : RenderAccess) : Prop :=
  ∀ p ∈ past, p.access.flags.write ≠ a.flags.write → ∃ k : RenderBarrier,
    k.Covers p.access.stage a.stage ∧
      (k ∈ p.emitted ∨ k ∈ (resolveRenderPassBarrier control b).2)

/-- One of two accesses writes, if they differ. -/
theorem write_of_ne {x y : Bool} (h : x ≠ y) : x = true ∨ y = true := by
  cases x
  · exact Or.inr (Bool.eq_true_of_not_eq_false (Ne.symm h))
  · exact Or.inl rfl

theorem ComputeCovered.ordered {past : List PastDispatch} {a : ResourceAccess}
    (h : ComputeCovered past b a) (hc : control[0] = false) : ComputeOrdered past b control a := by
  intro p hp hne
  rcases h p hp (write_of_ne hne) with hb | hrw | ⟨h1, h2, -⟩
  · exact Or.inl hb
  · rw [resolveComputePassBarrier, if_pos (barrierDue_of_rw hrw hc)]
    exact Or.inr (List.mem_singleton_self _)
  · exact absurd (h1.trans h2.symm) hne

theorem RenderCovered.ordered {past : List PastDraw} {a : RenderAccess} (h : RenderCovered past b a)
    (h0 : b.barrierPreRasterAfterFragmentSet = 0)
    (hc : control[0] = false) : RenderOrdered past b control a := by
  intro p hp hne
  obtain ⟨k, hk, hem | hrw | ⟨h1, h2, -⟩⟩ := h p hp (write_of_ne hne)
  · exact ⟨k, hk, Or.inl hem⟩
  · refine ⟨k, hk, Or.inr ?_⟩
    rcases resolve_pending control h0 k with ⟨-, hdue⟩ | hem
    · exact absurd (hdue.symm.trans (barrierDue_of_rw hrw hc)) (by decide)
    · exact hem
  · exact absurd (h1.trans h2.symm) hne

end Coverage

/-- A dispatch writes, and one reads and writes. -/
def dispatches : List (EncoderEvent ResourceAccess) :=
  [.access ⟨true, true⟩, .resolve kIntrapassControlBitIgnoreUAVWaW, .access ⟨false, true⟩]

/-- The fragment stage writes, reads and writes behind a pre-raster write, and resolves between. -/
def draws : List (EncoderEvent RenderAccess) :=
  [.access ⟨.preRaster, ⟨true, true⟩⟩, .access ⟨.fragment, ⟨true, true⟩⟩,
    .resolve kIntrapassControlBitIgnoreUAVWaW, .access ⟨.fragment, ⟨false, true⟩⟩,
    .resolve kIntrapassControlBitIgnoreUAVWaW]

/-- A dispatch writes, and the next one reads. -/
def writeRead : List (EncoderEvent ResourceAccess) :=
  [.access ⟨true, true⟩, .resolve kIntrapassControlBitIgnoreUAVWaW, .access ⟨false, true⟩,
    .resolve kIntrapassControlBitIgnoreUAVWaW]

end Dxmt
