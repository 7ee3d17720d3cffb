import Mathlib.Data.List.Nodup
import Mathlib.Data.List.Perm.Subperm
import Mathlib.Logic.Function.Basic
import Mathlib.Logic.Relation

/-!
# The ring of command chunks: `CommitCurrentChunk`, `EncodingThread`, `WaitForFinishThread`

Three threads share 32 chunks. The API thread records into `chunks[ready_for_encode % 32]` and
publishes it; the encode thread takes the published chunks in order, encodes them into a command
buffer and submits it; the finish thread waits for the command buffers in order and resets the
chunks. Only `chunk_ongoing` holds the API thread back: it waits while that is 31, after publishing,
and counts its chunk afterwards, so the finish thread may have subtracted it already.

One step below is one access to shared state, with the private work of the thread up to the next
one. The counters never wrap but for `chunk_ongoing`; command buffers finish in any order. The
destructor's shutdown (`stopped`), the frame latency fence and the GPU capture are left out.

Results: `Inv` relates the five counters and the content of every slot, one `Inv` lemma per step;
`recording_slot` is the safety of the current chunk, `Inv.done` that a run of the encode thread, the
finish thread and the GPU finishes everything, and `chunk_ring_safe` the statement about every
reachable state.

Source: `dxmt_command_queue.hpp:73-202`, `dxmt_command_queue.cpp:93-241`.
-/

namespace Dxmt

/-- `kCommandChunkCount`. -/
def kCommandChunkCount : Nat := 32

@[simp] theorem kCommandChunkCount_eq : kCommandChunkCount = 32 := rfl

/-- `CommandChunk`: its commands, and the command buffer they were encoded into, named by the
sequence number of its chunk. -/
structure CommandChunk (Cmd : Type) where
  chunkId : Nat
  listEnc : List Cmd
  attachedCmdbuf : Option Nat

/-- `reset`. -/
def CommandChunk.reset {Cmd : Type} (c : CommandChunk Cmd) : CommandChunk Cmd :=
  { c with listEnc := [], attachedCmdbuf := none }

/-- Where the API thread is: outside `CommitCurrentChunk`, before its `chunk_ongoing.wait`, or
between that and `chunk_ongoing.fetch_add`. -/
inductive ApiPc where
  | recording
  | waiting
  | counting
deriving DecidableEq

/-- Where the encode thread is: before `ready_for_encode.wait`, in `chunk.encode`, or past
`cmdbuf.commit` and before `ready_for_commit.fetch_add`. -/
inductive EncodePc where
  | idle
  | encoding
  | submitted
deriving DecidableEq

/-- Where the finish thread is: before `ready_for_commit.wait`, before `chunk.reset`, before
`cpu_coherent.signal`, or before `chunk_ongoing.fetch_sub`. -/
inductive FinishPc where
  | idle
  | waiting
  | reset
  | signaled
deriving DecidableEq

/-- The shared state, the private state of the threads, and what happened so far: the commands
recorded since the last publish, the commands of every published chunk, the commands of every
encoding, the submitted and the completed command buffers, and the chunks reset. -/
structure CommandQueue (Cmd : Type) where
  readyForEncode : Nat
  readyForCommit : Nat
  chunkOngoing : BitVec 64
  cpuCoherent : Nat
  chunks : Nat → CommandChunk Cmd
  api : ApiPc
  encode : EncodePc
  encodeSeq : Nat
  finish : FinishPc
  finishSeq : Nat
  recorded : List Cmd
  committed : List (List Cmd)
  encoded : List (List Cmd)
  submitted : List Nat
  completed : List Nat
  finished : List Nat

namespace CommandQueue

variable {Cmd : Type}

/-- `CommandQueue()`: the sequence numbers start from 1, every chunk is reset. -/
def init (Cmd : Type) : CommandQueue Cmd where
  readyForEncode := 1
  readyForCommit := 1
  chunkOngoing := 0
  cpuCoherent := 0
  chunks := fun _ => ⟨0, [], none⟩
  api := .recording
  encode := .idle
  encodeSeq := 1
  finish := .idle
  finishSeq := 1
  recorded := []
  committed := []
  encoded := []
  submitted := []
  completed := []
  finished := []

/-- `chunks[seq % kCommandChunkCount]`. -/
def chunk (s : CommandQueue Cmd) (seq : Nat) :
    CommandChunk Cmd := s.chunks (seq % kCommandChunkCount)

/-- The chunks with `f` applied to `chunks[seq % kCommandChunkCount]`. -/
def modifyChunk (s : CommandQueue Cmd) (seq : Nat) (f : CommandChunk Cmd → CommandChunk Cmd) :
    Nat → CommandChunk Cmd :=
  Function.update s.chunks (seq % kCommandChunkCount) (f (s.chunk seq))

/-- `CurrentChunk`. -/
def currentChunk (s : CommandQueue Cmd) : CommandChunk Cmd := s.chunk s.readyForEncode

/-- `CpuFence::signal`: the value only grows. -/
def signal (value seq : Nat) : Nat := if seq ≤ value then value else seq

/-- A step of the API thread. -/
inductive ApiStep : CommandQueue Cmd → CommandQueue Cmd → Prop
  /-- `emitcc` on `CurrentChunk()`. -/
  | record (s) (c : Cmd) (h : s.api = .recording) : ApiStep s { s with
      chunks := s.modifyChunk s.readyForEncode fun k => { k with listEnc := k.listEnc ++ [c] }
      recorded := s.recorded ++ [c] }
  /-- `CommitCurrentChunk` up to `ready_for_encode.fetch_add`. -/
  | publish (s) (h : s.api = .recording) : ApiStep s { s with
      chunks := s.modifyChunk s.readyForEncode fun k => { k with chunkId := s.readyForEncode }
      readyForEncode := s.readyForEncode + 1
      api := .waiting
      committed := s.committed ++ [s.recorded]
      recorded := [] }
  /-- `chunk_ongoing.wait(kCommandChunkCount - 1)` returns. -/
  | wait (s) (h : s.api = .waiting)
      (hw : s.chunkOngoing ≠ BitVec.ofNat 64 (kCommandChunkCount - 1)) :
      ApiStep s { s with api := .counting }
  /-- `chunk_ongoing.fetch_add(1)`. -/
  | count (s) (h : s.api = .counting) :
      ApiStep s { s with chunkOngoing := s.chunkOngoing + 1, api := .recording }

/-- A step of the encode thread, the GPU or the finish thread. -/
inductive WorkStep : CommandQueue Cmd → CommandQueue Cmd → Prop
  /-- `ready_for_encode.wait(internal_seq)` returns; `chunk.attached_cmdbuf = cmdbuf`. -/
  | encodeBegin (s) (h : s.encode = .idle) (hw : s.readyForEncode ≠ s.encodeSeq) :
      WorkStep s { s with
        chunks := s.modifyChunk s.encodeSeq fun k => { k with attachedCmdbuf := some s.encodeSeq }
        encode := .encoding }
  /-- `chunk.encode` ends, `cmdbuf.commit()`. -/
  | encodeEnd (s) (h : s.encode = .encoding) : WorkStep s { s with
      encode := .submitted
      encoded := s.encoded ++ [(s.chunk s.encodeSeq).listEnc]
      submitted := s.submitted ++ [s.encodeSeq] }
  /-- `ready_for_commit.fetch_add(1)`, `internal_seq++`. -/
  | encodePublish (s) (h : s.encode = .submitted) : WorkStep s { s with
      readyForCommit := s.readyForCommit + 1
      encode := .idle
      encodeSeq := s.encodeSeq + 1 }
  /-- A submitted command buffer completes. -/
  | gpuComplete (s) (seq : Nat) (h : seq ∈ s.submitted) (hn : seq ∉ s.completed) :
      WorkStep s { s with completed := s.completed ++ [seq] }
  /-- `ready_for_commit.wait(internal_seq)` returns. -/
  | finishBegin (s) (h : s.finish = .idle) (hw : s.readyForCommit ≠ s.finishSeq) :
      WorkStep s { s with finish := .waiting }
  /-- The attached command buffer, if there is one, is complete; `chunk.reset()`. -/
  | finishReset (s) (h : s.finish = .waiting)
      (hw : ∀ seq, (s.chunk s.finishSeq).attachedCmdbuf = some seq → seq ∈ s.completed) :
      WorkStep s { s with
        chunks := s.modifyChunk s.finishSeq CommandChunk.reset
        finish := .reset
        finished := s.finished ++ [s.finishSeq] }
  /-- `cpu_coherent.signal(internal_seq)`. -/
  | finishSignal (s) (h : s.finish = .reset) : WorkStep s { s with
      cpuCoherent := signal s.cpuCoherent s.finishSeq
      finish := .signaled }
  /-- `chunk_ongoing.fetch_sub(1)`, `internal_seq++`. -/
  | finishSub (s) (h : s.finish = .signaled) : WorkStep s { s with
      chunkOngoing := s.chunkOngoing - 1
      finish := .idle
      finishSeq := s.finishSeq + 1 }

/-- Any thread, or the GPU, takes a step. -/
def Step (s t : CommandQueue Cmd) : Prop := ApiStep s t ∨ WorkStep s t

/-- The states of all runs. -/
def Reachable (s : CommandQueue Cmd) : Prop := Relation.ReflTransGen Step (init Cmd) s

/-! ## The invariant -/

/-- The number of the first chunk that is not reset yet. -/
def resetSeq (s : CommandQueue Cmd) : Nat :=
  match s.finish with
  | .idle | .waiting => s.finishSeq
  | .reset | .signaled => s.finishSeq + 1

/-- The number of the first chunk that is not submitted yet. -/
def submitSeq (s : CommandQueue Cmd) : Nat :=
  match s.encode with
  | .idle | .encoding => s.encodeSeq
  | .submitted => s.encodeSeq + 1

/-- The number of the first chunk that is not counted yet. -/
def countSeq (s : CommandQueue Cmd) : Nat :=
  match s.api with
  | .recording => s.readyForEncode
  | .waiting | .counting => s.readyForEncode - 1

/-- The counters, and `chunk_ongoing` as a difference that may be -1. -/
structure Counters (s : CommandQueue Cmd) : Prop where
  finish_pos : 1 ≤ s.finishSeq
  finish_le : s.finishSeq ≤ s.encodeSeq
  encode_le : s.encodeSeq ≤ s.readyForEncode
  commit_eq : s.readyForCommit = s.encodeSeq
  encode_lt : s.encode ≠ .idle → s.encodeSeq < s.readyForEncode
  finish_lt : s.finish ≠ .idle → s.finishSeq < s.encodeSeq
  published : s.api ≠ .recording → 2 ≤ s.readyForEncode
  ongoing : s.chunkOngoing = BitVec.ofInt 64 ((s.countSeq : Int) - s.finishSeq)
  count_le : s.countSeq ≤ s.finishSeq + 31
  counting_lt : s.api = .counting → s.countSeq < s.finishSeq + 31

/-- The content of the slots, by the number of the chunk: from `reset` to `submit` it awaits
completion, from `encode` to `ready` it is to be encoded, from `ready` to `reset + 32` it is free.
-/
structure Slots (chunk : Nat → CommandChunk Cmd) (reset submit encode ready : Nat) (pc : EncodePc)
    (committed : List (List Cmd)) (recorded : List Cmd) : Prop where
  queued : ∀ q, encode ≤ q → q < ready → committed[q - 1]? = some (chunk q).listEnc
  encoding : pc = .encoding → (chunk encode).attachedCmdbuf = some encode
  awaiting : ∀ q, reset ≤ q → q < submit → (chunk q).attachedCmdbuf = some q
  free : ∀ q, ready ≤ q → q < reset + 32 →
    (chunk q).attachedCmdbuf = none ∧ (chunk q).listEnc = if q = ready then recorded else []

/-- What happened, in commit order. -/
structure Logs (s : CommandQueue Cmd) : Prop where
  committed : s.committed.length + 1 = s.readyForEncode
  recorded : s.api ≠ .recording → s.recorded = []
  encoded : s.encoded = s.committed.take (s.submitSeq - 1)
  submitted : s.submitted = List.range' 1 (s.submitSeq - 1)
  finished : s.finished = List.range' 1 (s.resetSeq - 1)
  nodup : s.completed.Nodup
  completed : ∀ q ∈ s.completed, q ∈ s.submitted
  complete : ∀ q, 1 ≤ q → q < s.resetSeq → q ∈ s.completed
  coherent : s.cpuCoherent < s.resetSeq

/-- What holds in every run. -/
structure Inv (s : CommandQueue Cmd) : Prop where
  counters : Counters s
  slots : Slots s.chunk s.resetSeq s.submitSeq s.encodeSeq s.readyForEncode s.encode s.committed
    s.recorded
  logs : Logs s

theorem inv_init : Inv (init Cmd) where
  counters := by
    constructor <;> simp [init, countSeq]
  slots := by
    constructor
    · intro q h1 h2
      exact absurd h2 (Nat.not_lt.mpr h1)
    · exact fun h => nomatch h
    · intro q h1 h2
      exact absurd h2 (Nat.not_lt.mpr h1)
    · intro q _ _
      refine ⟨rfl, ?_⟩
      split <;> rfl
  logs := by
    refine ⟨rfl, fun _ => rfl, rfl, rfl, rfl, List.nodup_nil, fun q hq => ?_, fun q h1 h2 => ?_,
      Nat.zero_lt_one⟩
    · exact absurd hq List.not_mem_nil
    · exact absurd h2 (Nat.not_lt.mpr h1)

/-- Two different numbers less than 32 apart have different slots. -/
theorem slot_ne {q r : Nat} (h : q ≠ r) (h1 : q < r + 32) (h2 : r < q + 32) : q % 32 ≠ r % 32 := by
  omega

/-- `chunk'` is `chunk` with `f` applied to the slot of `seq`. -/
structure Modified (chunk chunk' : Nat → CommandChunk Cmd) (seq : Nat)
    (f : CommandChunk Cmd → CommandChunk Cmd) : Prop where
  self : ∀ q, q % 32 = seq % 32 → chunk' q = f (chunk seq)
  other : ∀ q, q % 32 ≠ seq % 32 → chunk' q = chunk q

theorem modified_of_chunks {s t : CommandQueue Cmd} {seq : Nat}
    {f : CommandChunk Cmd → CommandChunk Cmd} (h : t.chunks = s.modifyChunk seq f) :
    Modified s.chunk t.chunk seq f where
  self q hq := by
    rw [chunk, h, kCommandChunkCount_eq, hq]
    exact Function.update_self _ _ _
  other q hq := by
    rw [chunk, h]
    exact Function.update_of_ne hq _ _

section Slots

variable {chunk chunk' : Nat → CommandChunk Cmd} {reset submit encode ready : Nat} {pc : EncodePc}
  {committed : List (List Cmd)} {recorded : List Cmd} {f : CommandChunk Cmd → CommandChunk Cmd}

/-- Recording touches the first free slot, and no slot of a chunk in use. -/
theorem Slots.record (h : Slots chunk reset submit encode ready pc committed recorded) (c : Cmd)
    (hm : Modified chunk chunk' ready fun k => { k with listEnc := k.listEnc ++ [c] })
    (h1 : reset ≤ encode) (h2 : submit ≤ ready) (h3 : encode ≤ ready) (h4 : ready ≤ reset + 31)
    (h5 : pc = .encoding → encode < ready) :
    Slots chunk' reset submit encode ready pc committed (recorded ++ [c]) where
  queued q hq1 hq2 := by
    rw [hm.other q (slot_ne (by omega) (by omega) (by omega))]
    exact h.queued q hq1 hq2
  encoding he := by
    have := h5 he
    rw [hm.other encode (slot_ne (by omega) (by omega) (by omega))]
    exact h.encoding he
  awaiting q hq1 hq2 := by
    rw [hm.other q (slot_ne (by omega) (by omega) (by omega))]
    exact h.awaiting q hq1 hq2
  free q hq1 hq2 := by
    obtain ⟨hatt, hlist⟩ := h.free q hq1 hq2
    by_cases hq : q = ready
    · subst hq
      rw [if_pos rfl] at hlist ⊢
      rw [hm.self q rfl]
      exact ⟨hatt, congrArg (· ++ [c]) hlist⟩
    · rw [if_neg hq] at hlist ⊢
      rw [hm.other q (slot_ne hq (by omega) (by omega))]
      exact ⟨hatt, hlist⟩

/-- Publishing makes the recorded chunk the last one to encode. -/
theorem Slots.publish (h : Slots chunk reset submit encode ready pc committed recorded)
    (hm : Modified chunk chunk' ready fun k => { k with chunkId := ready }) (h0 : 1 ≤ reset)
    (h1 : reset ≤ encode) (h2 : submit ≤ ready) (h3 : encode ≤ ready) (h4 : ready ≤ reset + 31)
    (h5 : pc = .encoding → encode < ready) (hlen : committed.length + 1 = ready) :
    Slots chunk' reset submit encode (ready + 1) pc (committed ++ [recorded]) [] where
  queued q hq1 hq2 := by
    by_cases hq : q = ready
    · subst hq
      have hpos : q - 1 = committed.length := by omega
      rw [hm.self q rfl, hpos, List.getElem?_concat_length]
      have := (h.free q (Nat.le_refl q) (by omega)).2
      rw [if_pos rfl] at this
      exact congrArg some this.symm
    · rw [hm.other q (slot_ne hq (by omega) (by omega)), List.getElem?_append_left (by omega)]
      exact h.queued q hq1 (by omega)
  encoding he := by
    have := h5 he
    rw [hm.other encode (slot_ne (by omega) (by omega) (by omega))]
    exact h.encoding he
  awaiting q hq1 hq2 := by
    rw [hm.other q (slot_ne (by omega) (by omega) (by omega))]
    exact h.awaiting q hq1 hq2
  free q hq1 hq2 := by
    obtain ⟨hatt, hlist⟩ := h.free q (by omega) hq2
    rw [if_neg (by omega)] at hlist
    rw [hm.other q (slot_ne (by omega) (by omega) (by omega)), ite_self]
    exact ⟨hatt, hlist⟩

/-- The encode thread attaches a command buffer to its chunk. -/
theorem Slots.encodeBegin (h : Slots chunk reset submit encode ready pc committed recorded)
    (hm : Modified chunk chunk' encode fun k => { k with attachedCmdbuf := some encode })
    (h1 : reset ≤ encode) (h2 : submit = encode) (h3 : encode < ready) (h4 : ready ≤ reset + 32) :
    Slots chunk' reset submit encode ready .encoding committed recorded where
  queued q hq1 hq2 := by
    by_cases hq : q = encode
    · subst hq
      rw [hm.self q rfl]
      exact h.queued q hq1 hq2
    · rw [hm.other q (slot_ne hq (by omega) (by omega))]
      exact h.queued q hq1 hq2
  encoding _ := by rw [hm.self encode rfl]
  awaiting q hq1 hq2 := by
    rw [hm.other q (slot_ne (by omega) (by omega) (by omega))]
    exact h.awaiting q hq1 hq2
  free q hq1 hq2 := by
    rw [hm.other q (slot_ne (by omega) (by omega) (by omega))]
    exact h.free q hq1 hq2

/-- The encoded chunk awaits completion. -/
theorem Slots.encodeEnd (h : Slots chunk reset encode encode ready .encoding committed recorded) :
    Slots chunk reset (encode + 1) encode ready .submitted committed recorded where
  queued := h.queued
  encoding he := nomatch he
  awaiting q hq1 hq2 := by
    rcases Nat.lt_succ_iff_lt_or_eq.mp hq2 with hq | rfl
    · exact h.awaiting q hq1 hq
    · exact h.encoding rfl
  free := h.free

theorem Slots.encodePublish (h : Slots chunk reset submit encode ready pc committed recorded) :
    Slots chunk reset submit (encode + 1) ready .idle committed recorded where
  queued q hq1 hq2 := h.queued q (by omega) hq2
  encoding he := nomatch he
  awaiting := h.awaiting
  free := h.free

/-- Resetting frees the slot for the chunk 32 numbers later. -/
theorem Slots.finishReset (h : Slots chunk reset submit encode ready pc committed recorded)
    (hm : Modified chunk chunk' reset CommandChunk.reset) (h1 : reset < encode)
    (h2 : submit ≤ ready) (h3 : encode ≤ ready) (h4 : ready ≤ reset + 32)
    (h5 : pc = .encoding → encode < ready) (h6 : ready = reset + 32 → recorded = []) :
    Slots chunk' (reset + 1) submit encode ready pc committed recorded where
  queued q hq1 hq2 := by
    rw [hm.other q (slot_ne (by omega) (by omega) (by omega))]
    exact h.queued q hq1 hq2
  encoding he := by
    have := h5 he
    rw [hm.other encode (slot_ne (by omega) (by omega) (by omega))]
    exact h.encoding he
  awaiting q hq1 hq2 := by
    rw [hm.other q (slot_ne (by omega) (by omega) (by omega))]
    exact h.awaiting q (by omega) hq2
  free q hq1 hq2 := by
    by_cases hq : q = reset + 32
    · subst hq
      rw [hm.self _ (by omega)]
      refine ⟨rfl, ?_⟩
      split
      · next hr => exact (h6 hr.symm).symm
      · rfl
    · rw [hm.other q (slot_ne (by omega) (by omega) (by omega))]
      exact h.free q hq1 (by omega)

end Slots

section Steps

variable {s : CommandQueue Cmd}

theorem Counters.bounds (h : Counters s) : 1 ≤ s.finishSeq ∧ s.finishSeq ≤ s.resetSeq ∧
    s.resetSeq ≤ s.encodeSeq ∧ s.encodeSeq ≤ s.submitSeq ∧ s.submitSeq ≤ s.readyForEncode := by
  obtain ⟨h1, h2, h3, h4, h5, h6, -, -, -, -⟩ := h
  unfold resetSeq submitSeq
  refine ⟨h1, ?_, ?_, ?_, ?_⟩
  · cases s.finish <;> simp
  · cases hf : s.finish with
    | idle => exact h2
    | waiting => exact h2
    | reset => exact h6 (by rw [hf]; decide)
    | signaled => exact h6 (by rw [hf]; decide)
  · cases s.encode <;> simp
  · cases he : s.encode with
    | idle => exact h3
    | encoding => exact h3
    | submitted => exact h5 (by rw [he]; decide)

/-- The number of the current chunk is less than 32 ahead of the finish thread while it is being
recorded, and at most 32 otherwise. -/
theorem Counters.ready_le (h : Counters s) :
    s.readyForEncode ≤ s.finishSeq + 32 ∧
      (s.api = .recording → s.readyForEncode ≤ s.finishSeq + 31) := by
  have hle := h.count_le
  have hp := h.published
  unfold countSeq at hle
  cases hpc : s.api with
  | recording =>
    rw [hpc] at hle
    exact ⟨Nat.le_succ_of_le hle, fun _ => hle⟩
  | waiting =>
    rw [hpc] at hle
    dsimp only at hle
    exact ⟨by omega, fun h => nomatch h⟩
  | counting =>
    rw [hpc] at hle
    dsimp only at hle
    exact ⟨by omega, fun h => nomatch h⟩

theorem Inv.api (h : Inv s) {t : CommandQueue Cmd} (hst : ApiStep s t) : Inv t := by
  obtain ⟨hc, hs, hl⟩ := h
  obtain ⟨b1, b2, b3, b4, b5⟩ := hc.bounds
  obtain ⟨hr, hr'⟩ := hc.ready_le
  have henc : s.encode = .encoding → s.encodeSeq < s.readyForEncode :=
    fun he => hc.encode_lt (by rw [he]; decide)
  cases hst with
  | record c hpc =>
    have hlt := hr' hpc
    exact ⟨⟨hc.1, hc.2, hc.3, hc.4, hc.5, hc.6, hc.7, hc.8, hc.9, hc.10⟩,
      hs.record c (modified_of_chunks rfl) b3 b5 (by omega) (by omega) henc,
      ⟨hl.1, fun hne => absurd hpc hne, hl.3, hl.4, hl.5, hl.6, hl.7, hl.8, hl.9⟩⟩
  | publish hpc =>
    have hlt := hr' hpc
    have hon := hc.ongoing
    rw [countSeq, hpc] at hon
    refine ⟨⟨hc.1, hc.2, Nat.le_succ_of_le hc.3, hc.4, fun h => Nat.lt_succ_of_lt (hc.5 h), hc.6,
        fun _ => ?_, hon, hlt, fun h => nomatch h⟩,
      hs.publish (modified_of_chunks rfl) (by omega) b3 b5 (by omega) (by omega) henc
        hl.committed,
      ⟨?_, fun _ => rfl, ?_, hl.4, hl.5, hl.6, hl.7, hl.8, hl.9⟩⟩
    · exact Nat.succ_le_succ (by omega)
    · rw [List.length_append]
      exact congrArg (· + 1) hl.committed
    · rw [hl.encoded]
      have := hl.committed
      exact (List.take_append_of_le_length (by omega)).symm
  | wait hpc hw =>
    have hon := hc.ongoing
    have hcount := hc.count_le
    have hp := hc.published (by rw [hpc]; decide)
    rw [countSeq, hpc] at hon hcount
    refine ⟨⟨hc.1, hc.2, hc.3, hc.4, hc.5, hc.6, fun _ => hp, hon, hcount, fun _ => ?_⟩, hs,
      ⟨hl.1, fun _ => hl.2 (by rw [hpc]; decide), hl.3, hl.4, hl.5, hl.6, hl.7, hl.8, hl.9⟩⟩
    -- 31 is excluded by the wait, also as a difference modulo 2^64
    refine Nat.lt_of_le_of_ne hcount fun heq => hw ?_
    rw [hon]
    have heq' : s.readyForEncode - 1 = s.finishSeq + 31 := heq
    have : ((s.readyForEncode - 1 : Nat) : Int) - s.finishSeq = 31 := by omega
    rw [this]
    rfl
  | count hpc =>
    have hon := hc.ongoing
    have hlt := hc.counting_lt hpc
    have hp := hc.published (by rw [hpc]; decide)
    rw [countSeq, hpc] at hon hlt
    refine ⟨⟨hc.1, hc.2, hc.3, hc.4, hc.5, hc.6, fun h => absurd rfl h, ?_, ?_, fun h => nomatch h⟩,
      hs, ⟨hl.1, fun h => absurd rfl h, hl.3, hl.4, hl.5, hl.6, hl.7, hl.8, hl.9⟩⟩
    · show s.chunkOngoing + 1 = BitVec.ofInt 64 ((s.readyForEncode : Int) - s.finishSeq)
      have : (s.readyForEncode : Int) - s.finishSeq =
          ((s.readyForEncode - 1 : Nat) : Int) - s.finishSeq + 1 := by omega
      rw [this, BitVec.ofInt_add, ← hon]
      rfl
    · show s.readyForEncode ≤ s.finishSeq + 31
      dsimp only at hlt
      omega

/-- A chunk that is not current has been published. -/
theorem Inv.recorded_nil (h : Inv s) (heq : s.readyForEncode = s.finishSeq + 32) :
    s.recorded = [] := by
  refine h.logs.recorded fun hpc => ?_
  have := h.counters.ready_le.2 hpc
  omega

theorem Inv.encodeStep (h : Inv s) : (s.encode = .idle → s.readyForEncode ≠ s.encodeSeq →
      Inv { s with
        chunks := s.modifyChunk s.encodeSeq fun k => { k with attachedCmdbuf := some s.encodeSeq }
        encode := .encoding }) ∧
    (s.encode = .encoding → Inv { s with
      encode := .submitted
      encoded := s.encoded ++ [(s.chunk s.encodeSeq).listEnc]
      submitted := s.submitted ++ [s.encodeSeq] }) ∧
    (s.encode = .submitted → Inv { s with
      readyForCommit := s.readyForCommit + 1
      encode := .idle
      encodeSeq := s.encodeSeq + 1 }) := by
  have hrec := h.recorded_nil
  obtain ⟨hc, hs, hl⟩ := h
  obtain ⟨b1, b2, b3, b4, b5⟩ := hc.bounds
  obtain ⟨hr, -⟩ := hc.ready_le
  have henc := hl.encoded
  have hsub := hl.submitted
  refine ⟨fun hpc hw => ?_, fun hpc => ?_, fun hpc => ?_⟩
  · have hlt : s.encodeSeq < s.readyForEncode := Nat.lt_of_le_of_ne hc.encode_le (Ne.symm hw)
    rw [submitSeq, hpc] at henc hsub
    rw [submitSeq, hpc] at hs
    exact ⟨⟨hc.1, hc.2, hc.3, hc.4, fun _ => hlt, hc.6, hc.7, hc.8, hc.9, hc.10⟩,
      hs.encodeBegin (modified_of_chunks rfl) b3 rfl hlt (by omega),
      ⟨hl.1, hl.2, henc, hsub, hl.5, hl.6, hl.7, hl.8, hl.9⟩⟩
  · have hlt := hc.encode_lt (by rw [hpc]; decide)
    have hcont := hs.queued _ (Nat.le_refl _) hlt
    rw [submitSeq, hpc] at henc hsub
    rw [submitSeq, hpc] at hs
    refine ⟨⟨hc.1, hc.2, hc.3, hc.4, fun _ => hlt, hc.6, hc.7, hc.8, hc.9, hc.10⟩, hs.encodeEnd,
      ⟨hl.1, hl.2, ?_, ?_, hl.5, hl.6, fun q hq => List.mem_append_left _ (hl.7 q hq), hl.8, hl.9⟩⟩
    · show s.encoded ++ [(s.chunk s.encodeSeq).listEnc] = s.committed.take (s.encodeSeq + 1 - 1)
      have hpos : s.encodeSeq + 1 - 1 = s.encodeSeq - 1 + 1 := by omega
      rw [henc, hpos, List.take_add_one, hcont]
      rfl
    · show s.submitted ++ [s.encodeSeq] = List.range' 1 (s.encodeSeq + 1 - 1)
      have hpos : s.encodeSeq + 1 - 1 = s.encodeSeq - 1 + 1 := by omega
      rw [hsub, hpos, List.range'_concat]
      have : 1 + 1 * (s.encodeSeq - 1) = s.encodeSeq := by omega
      rw [this]
  · have hlt := hc.encode_lt (by rw [hpc]; decide)
    rw [submitSeq, hpc] at henc hsub
    rw [submitSeq, hpc] at hs
    exact ⟨⟨hc.1, Nat.le_succ_of_le hc.2, hlt, congrArg (· + 1) hc.4, fun h => absurd rfl h,
        fun h => Nat.lt_succ_of_lt (hc.6 h), hc.7, hc.8, hc.9, hc.10⟩, hs.encodePublish,
      ⟨hl.1, hl.2, henc, hsub, hl.5, hl.6, hl.7, hl.8, hl.9⟩⟩

theorem Inv.gpuComplete (h : Inv s) {seq : Nat} (hs : seq ∈ s.submitted) (hn : seq ∉ s.completed) :
    Inv { s with completed := s.completed ++ [seq] } := by
  obtain ⟨hc, hsl, hl⟩ := h
  refine ⟨⟨hc.1, hc.2, hc.3, hc.4, hc.5, hc.6, hc.7, hc.8, hc.9, hc.10⟩, hsl,
    ⟨hl.1, hl.2, hl.3, hl.4, hl.5, ?_, fun q hq => ?_,
      fun q h1 h2 => List.mem_append_left _ (hl.8 q h1 h2), hl.9⟩⟩
  · exact hl.nodup.append (List.nodup_singleton seq) (List.disjoint_singleton.mpr hn)
  · rcases List.mem_append.mp hq with hq | hq
    · exact hl.completed q hq
    · exact List.mem_singleton.mp hq ▸ hs

/-- The command buffer the finish thread waits for is the one of its chunk. -/
theorem Inv.attached (h : Inv s) (hpc : s.finish = .waiting) :
    (s.chunk s.finishSeq).attachedCmdbuf = some s.finishSeq := by
  have hlt := h.counters.finish_lt (by rw [hpc]; decide)
  obtain ⟨-, -, -, b4, -⟩ := h.counters.bounds
  have hs := h.slots
  rw [resetSeq, hpc] at hs
  exact hs.awaiting _ (Nat.le_refl _) (Nat.lt_of_lt_of_le hlt b4)

theorem Inv.finishBegin (h : Inv s) (hpc : s.finish = .idle) (hw : s.readyForCommit ≠ s.finishSeq) :
    Inv { s with finish := .waiting } := by
  obtain ⟨hc, hs, hl⟩ := h
  have hlt : s.finishSeq < s.encodeSeq :=
    Nat.lt_of_le_of_ne hc.finish_le fun he => hw (hc.commit_eq.trans he.symm)
  obtain ⟨l1, l2, l3, l4, l5, l6, l7, l8, l9⟩ := hl
  rw [resetSeq, hpc] at hs l5 l8 l9
  exact ⟨⟨hc.1, hc.2, hc.3, hc.4, hc.5, fun _ => hlt, hc.7, hc.8, hc.9, hc.10⟩, hs,
    ⟨l1, l2, l3, l4, l5, l6, l7, l8, l9⟩⟩

theorem Inv.finishReset (h : Inv s) (hpc : s.finish = .waiting)
    (hw : ∀ seq, (s.chunk s.finishSeq).attachedCmdbuf = some seq → seq ∈ s.completed) :
    Inv { s with
      chunks := s.modifyChunk s.finishSeq CommandChunk.reset
      finish := .reset
      finished := s.finished ++ [s.finishSeq] } := by
  have hdone := hw _ (h.attached hpc)
  have hrec := h.recorded_nil
  obtain ⟨hc, hs, hl⟩ := h
  have hpos := hc.finish_pos
  have hlt := hc.finish_lt (by rw [hpc]; decide)
  have henc : s.encode = .encoding → s.encodeSeq < s.readyForEncode :=
    fun he => hc.encode_lt (by rw [he]; decide)
  obtain ⟨-, -, b3, b4, b5⟩ := hc.bounds
  obtain ⟨hr, -⟩ := hc.ready_le
  obtain ⟨l1, l2, l3, l4, l5, l6, l7, l8, l9⟩ := hl
  rw [resetSeq, hpc] at hs l5 l8 l9
  refine ⟨⟨hc.1, hc.2, hc.3, hc.4, hc.5, fun _ => hlt, hc.7, hc.8, hc.9, hc.10⟩,
    hs.finishReset (modified_of_chunks rfl) hlt b5 hc.encode_le hr henc hrec,
    ⟨l1, l2, l3, l4, ?_, l6, l7, fun q h1 h2 => ?_, Nat.lt_succ_of_lt l9⟩⟩
  · show s.finished ++ [s.finishSeq] = List.range' 1 (s.finishSeq + 1 - 1)
    have hn : s.finishSeq + 1 - 1 = s.finishSeq - 1 + 1 := by omega
    have hv : 1 + 1 * (s.finishSeq - 1) = s.finishSeq := by omega
    rw [l5, hn, List.range'_concat, hv]
  · rcases Nat.lt_succ_iff_lt_or_eq.mp h2 with hq | rfl
    · exact l8 q h1 hq
    · exact hdone

theorem Inv.finishSignal (h : Inv s) (hpc : s.finish = .reset) :
    Inv { s with cpuCoherent := signal s.cpuCoherent s.finishSeq, finish := .signaled } := by
  obtain ⟨hc, hs, hl⟩ := h
  have hlt := hc.finish_lt (by rw [hpc]; decide)
  obtain ⟨l1, l2, l3, l4, l5, l6, l7, l8, l9⟩ := hl
  rw [resetSeq, hpc] at hs l5 l8 l9
  refine ⟨⟨hc.1, hc.2, hc.3, hc.4, hc.5, fun _ => hlt, hc.7, hc.8, hc.9, hc.10⟩, hs,
    ⟨l1, l2, l3, l4, l5, l6, l7, l8, ?_⟩⟩
  show signal s.cpuCoherent s.finishSeq < s.finishSeq + 1
  unfold signal
  split
  · exact l9
  · exact Nat.lt_succ_self _

theorem Inv.finishSub (h : Inv s) (hpc : s.finish = .signaled) :
    Inv { s with
      chunkOngoing := s.chunkOngoing - 1
      finish := .idle
      finishSeq := s.finishSeq + 1 } := by
  obtain ⟨hc, hs, hl⟩ := h
  have hlt := hc.finish_lt (by rw [hpc]; decide)
  have hon := hc.ongoing
  have hle := hc.count_le
  obtain ⟨l1, l2, l3, l4, l5, l6, l7, l8, l9⟩ := hl
  rw [resetSeq, hpc] at hs l5 l8 l9
  refine ⟨⟨Nat.succ_pos _, hlt, hc.3, hc.4, hc.5, fun h => absurd rfl h, hc.7, ?_,
      Nat.le_succ_of_le hle, fun hapi => Nat.lt_succ_of_lt (hc.counting_lt hapi)⟩, hs,
    ⟨l1, l2, l3, l4, l5, l6, l7, l8, l9⟩⟩
  show s.chunkOngoing - 1 = BitVec.ofInt 64 ((s.countSeq : Int) - (s.finishSeq + 1 : Nat))
  have : (s.countSeq : Int) - (s.finishSeq + 1 : Nat) = (s.countSeq : Int) - s.finishSeq + -1 := by
    omega
  have hneg : BitVec.ofInt 64 (-1) = -1#64 := by decide
  rw [this, BitVec.ofInt_add, ← hon, hneg, ← BitVec.sub_eq_add_neg]
  rfl

/-- **Every step keeps the invariant.** -/
theorem Inv.work (h : Inv s) {t : CommandQueue Cmd} (hst : WorkStep s t) : Inv t := by
  obtain ⟨he1, he2, he3⟩ := h.encodeStep
  cases hst with
  | encodeBegin hpc hw => exact he1 hpc hw
  | encodeEnd hpc => exact he2 hpc
  | encodePublish hpc => exact he3 hpc
  | gpuComplete seq hs hn => exact h.gpuComplete hs hn
  | finishBegin hpc hw => exact h.finishBegin hpc hw
  | finishReset hpc hw => exact h.finishReset hpc hw
  | finishSignal hpc => exact h.finishSignal hpc
  | finishSub hpc => exact h.finishSub hpc

theorem inv_reachable (h : Reachable s) : Inv s := by
  induction h with
  | refl => exact inv_init
  | tail _ hst ih => exact hst.elim ih.api ih.work

end Steps

/-! ## Progress of the encode thread, the GPU and the finish thread -/

section Progress

variable {s t : CommandQueue Cmd}

/-- What the encode thread and the finish thread have left to do for their chunks. -/
def EncodePc.left : EncodePc → Nat
  | .idle => 3
  | .encoding => 2
  | .submitted => 1

/-- The steps that are left of a turn of the finish thread. -/
def FinishPc.left : FinishPc → Nat
  | .idle => 4
  | .waiting => 3
  | .reset => 2
  | .signaled => 1

/-- The number of steps left, give or take a constant. -/
def left (s : CommandQueue Cmd) : Nat :=
  3 * (s.readyForEncode - s.encodeSeq) + EncodePc.left s.encode +
    4 * (s.readyForEncode - s.finishSeq) + FinishPc.left s.finish +
    (s.readyForEncode - s.completed.length)

theorem Inv.completed_lt (h : Inv s) {seq : Nat} (hs : seq ∈ s.submitted)
    (hn : seq ∉ s.completed) : s.completed.length < s.readyForEncode := by
  obtain ⟨b1, b2, b3, b4, b5⟩ := h.counters.bounds
  have hnd : (seq :: s.completed).Nodup := List.nodup_cons.mpr ⟨hn, h.logs.nodup⟩
  have hsub : (seq :: s.completed) ⊆ s.submitted :=
    List.cons_subset.mpr ⟨hs, h.logs.completed⟩
  have hlen := (hnd.subperm hsub).length_le
  rw [h.logs.submitted, List.length_range', List.length_cons] at hlen
  omega

/-- Every step of theirs leaves less to do. -/
theorem WorkStep.left_lt (h : Inv s) (hst : WorkStep s t) : t.left < s.left := by
  have hc := h.counters
  have h1 := hc.encode_le
  have h2 := hc.finish_le
  cases hst with
  | encodeBegin hpc hw => simp [left, hpc, EncodePc.left]
  | encodeEnd hpc => simp [left, hpc, EncodePc.left]
  | encodePublish hpc =>
    have := hc.encode_lt (by rw [hpc]; decide)
    simp only [left, hpc, EncodePc.left]
    omega
  | gpuComplete seq hs hn =>
    have := h.completed_lt hs hn
    simp only [left, List.length_append, List.length_singleton]
    omega
  | finishBegin hpc hw => simp [left, hpc, FinishPc.left]
  | finishReset hpc hw => simp [left, hpc, FinishPc.left]
  | finishSignal hpc => simp [left, hpc, FinishPc.left]
  | finishSub hpc =>
    have := hc.finish_lt (by rw [hpc]; decide)
    simp only [left, hpc, FinishPc.left]
    omega

/-- Unless everything is finished, one of them can take a step. -/
theorem Inv.workStep (h : Inv s) (hlt : s.finishSeq < s.readyForEncode) : ∃ t, WorkStep s t := by
  have hc := h.counters
  cases he : s.encode with
  | encoding => exact ⟨_, .encodeEnd s he⟩
  | submitted => exact ⟨_, .encodePublish s he⟩
  | idle =>
    by_cases hw : s.readyForEncode = s.encodeSeq
    · cases hf : s.finish with
      | idle => exact ⟨_, .finishBegin s hf (by have := hc.commit_eq; omega)⟩
      | reset => exact ⟨_, .finishSignal s hf⟩
      | signaled => exact ⟨_, .finishSub s hf⟩
      | waiting =>
        by_cases hd : s.finishSeq ∈ s.completed
        · refine ⟨_, .finishReset s hf fun seq hseq => ?_⟩
          obtain rfl := Option.some.inj ((h.attached hf).symm.trans hseq)
          exact hd
        · refine ⟨_, .gpuComplete s s.finishSeq ?_ hd⟩
          have hpos := hc.finish_pos
          rw [h.logs.submitted, submitSeq, he, List.mem_range'_1]
          dsimp only
          omega
    · exact ⟨_, .encodeBegin s he hw⟩

theorem WorkStep.committed (hst : WorkStep s t) :
    t.committed = s.committed ∧ t.readyForEncode = s.readyForEncode := by
  cases hst <;> exact ⟨rfl, rfl⟩

/-- They finish everything that was committed. -/
theorem Inv.done {s : CommandQueue Cmd} (h : Inv s) : ∃ t, Relation.ReflTransGen WorkStep s t ∧
    t.committed = s.committed ∧ t.encoded = s.committed ∧
    t.finished = List.range' 1 s.committed.length := by
  by_cases hlt : s.finishSeq < s.readyForEncode
  · obtain ⟨u, hu⟩ := h.workStep hlt
    have := WorkStep.left_lt h hu
    obtain ⟨t, ht, h1, h2, h3⟩ := (h.work hu).done
    rw [hu.committed.1] at h1 h2 h3
    exact ⟨t, ht.head hu, h1, h2, h3⟩
  · obtain ⟨b1, b2, b3, b4, b5⟩ := h.counters.bounds
    have hlen := h.logs.committed
    refine ⟨s, .refl, rfl, ?_, ?_⟩
    · rw [h.logs.encoded]
      exact List.take_of_length_le (by omega)
    · rw [h.logs.finished]
      congr 1
      omega
termination_by s.left

end Progress

/-! ## The ring -/

/-- The slot of the current chunk: it holds what was recorded since the last publish and nothing
else, it has no command buffer, and it is not the slot of a published chunk that is not reset. -/
structure CurrentFree (s : CommandQueue Cmd) : Prop where
  listEnc : s.currentChunk.listEnc = s.recorded
  attached : s.currentChunk.attachedCmdbuf = none
  unused : ∀ q, 1 ≤ q → q < s.readyForEncode → q ∉ s.finished →
    q % kCommandChunkCount ≠ s.readyForEncode % kCommandChunkCount

theorem recording_slot {s : CommandQueue Cmd} (h : Inv s) (hpc : s.api = .recording) :
    CurrentFree s := by
  obtain ⟨b1, b2, b3, b4, b5⟩ := h.counters.bounds
  have hle := h.counters.ready_le.2 hpc
  obtain ⟨hatt, hlist⟩ := h.slots.free s.readyForEncode (Nat.le_refl _) (by omega)
  rw [if_pos rfl] at hlist
  refine ⟨hlist, hatt, fun q hq1 hq2 hq => slot_ne (Nat.ne_of_lt hq2) ?_ ?_⟩
  · omega
  · rw [h.logs.finished, List.mem_range'_1] at hq
    omega

/-- What the ring promises: the API thread records into a slot that no other chunk uses; the chunks
are encoded in commit order, each once and with the commands recorded for it, and then reset in the
same order; `cpu_coherent` is not ahead of the GPU; and the other threads can finish every committed
chunk without the API thread. -/
structure RingSafe (s : CommandQueue Cmd) : Prop where
  current : s.api = .recording → CurrentFree s
  encoded : s.encoded <+: s.committed
  finished : ∃ n, n ≤ s.encoded.length ∧ s.finished = List.range' 1 n
  coherent : ∀ q, 1 ≤ q → q ≤ s.cpuCoherent → q ∈ s.completed
  done : ∃ t, Relation.ReflTransGen WorkStep s t ∧ t.committed = s.committed ∧
    t.encoded = s.committed ∧ t.finished = List.range' 1 s.committed.length

/-- **The ring is safe** in every reachable state. -/
theorem chunk_ring_safe (s : CommandQueue Cmd) (h : Reachable s) : RingSafe s := by
  have hinv := inv_reachable h
  obtain ⟨b1, b2, b3, b4, b5⟩ := hinv.counters.bounds
  have hlen := hinv.logs.committed
  refine ⟨recording_slot hinv, ?_, ⟨s.resetSeq - 1, ?_, hinv.logs.finished⟩, fun q h1 h2 => ?_,
    hinv.done⟩
  · rw [hinv.logs.encoded]
    exact List.take_prefix _ _
  · rw [hinv.logs.encoded, List.length_take]
    omega
  · exact hinv.logs.complete q h1 (Nat.lt_of_le_of_lt h2 hinv.logs.coherent)

/-- A chunk that is finished before the API thread counts it: `chunk_ongoing` is -1. -/
theorem chunk_ring_safe_early : ∃ s : CommandQueue Nat, s.chunkOngoing = -1 ∧
    s.api = .waiting ∧ s.encoded = [[7]] ∧ s.finished = [1] ∧ RingSafe s := by
  have h := Relation.ReflTransGen.refl (r := Step) (a := init Nat)
  have h := h.tail (Or.inl (.record _ 7 rfl))
  have h := h.tail (Or.inl (.publish _ rfl))
  have h := h.tail (Or.inr (.encodeBegin _ rfl (by decide)))
  have h := h.tail (Or.inr (.encodeEnd _ rfl))
  have h := h.tail (Or.inr (.encodePublish _ rfl))
  have h := h.tail (Or.inr (.finishBegin _ rfl (by decide)))
  have h := h.tail (Or.inr (.gpuComplete _ 1 (by decide) (by decide)))
  have h := h.tail (Or.inr (.finishReset _ rfl fun seq hs => Option.some.inj hs ▸ by decide))
  have h := h.tail (Or.inr (.finishSignal _ rfl))
  have h := h.tail (Or.inr (.finishSub _ rfl))
  exact ⟨_, rfl, rfl, rfl, rfl, chunk_ring_safe _ h⟩

end CommandQueue

end Dxmt
