import Mathlib.Algebra.BigOperators.Intervals
import Mathlib.Data.BitVec
import Mathlib.Data.List.Nodup
import Dxmt.Visibility

/-!
# Occlusion queries: `VisibilityResultQuery`, `VisibilityResultReadback`

A query keeps the chunk and the slot where it began and where it ended. Each chunk that used a slot
leaves a readback object with the pending queries; when the chunk is finished the object is
destroyed, and every query in it adds up its share of the slots (`issue`). `getValue` succeeds once
the last share has been added.

A chunk that used no slot leaves no readback, and a query that ended in it is dropped from the
pending ones all the same. If the query began in an earlier chunk it never gets its value.

`seq_id_begin` and `seq_id_end` are `none` for `~0uLL`. The counts of a buffer are those of the
draws that run under `Counting` with the slot's offset, in encoders that were not merged; they add
up modulo `2 ^ 64`. A query object is begun once, as both front ends do it.

Results: `Inv.total_step` is the accounting: what a query has accumulated, with its share of the
readbacks and of the chunk being recorded, grows by the draws issued while it is active.
`Inv.ended_run` follows `seq_id_issued`, and `query_complete` is the statement about a run.

Source: `dxmt_occlusion_query.hpp:83-193`, `dxmt_context.cpp:1965-1975, 2163-2170`.
-/

namespace Dxmt

/-- What a draw counts, and what a slot holds: a `uint64_t`. -/
abbrev Count := BitVec 64

/-- The loop of `issue`, with the number of slots left. -/
def accumulate (readbackBuffer : Nat → Count) : Nat → Nat → Count → Count
  | _, 0, acc => acc
  | start, n + 1, acc => accumulate readbackBuffer (start + 1) n (acc + readbackBuffer start)

/-- `VisibilityResultQuery`. -/
structure VisibilityResultQuery where
  accumulatedValue : Count := 0
  seqIdBegin : Option Nat := none
  occlusionCounterBegin : Nat := 2 ^ 64 - 1
  seqIdEnd : Option Nat := none
  occlusionCounterEnd : Nat := 2 ^ 64 - 1
  seqIdIssued : Nat := 0

namespace VisibilityResultQuery

/-- `begin`. -/
def beginAt (q : VisibilityResultQuery) (seqId offset : Nat) : VisibilityResultQuery :=
  { q with
    accumulatedValue := 0
    seqIdBegin := some seqId
    occlusionCounterBegin := offset
    seqIdEnd := none
    occlusionCounterEnd := 2 ^ 64 - 1 }

/-- `end`. -/
def endAt (q : VisibilityResultQuery) (seqId offset : Nat) : VisibilityResultQuery :=
  let q := { q with seqIdEnd := some seqId, occlusionCounterEnd := offset }
  if q.seqIdBegin = q.seqIdEnd ∧ q.occlusionCounterBegin = q.occlusionCounterEnd then
    { q with seqIdIssued := seqId }
  else
    q

/-- The slots of a chunk that belong to the query: from `start` to `stop`. -/
def start (q : VisibilityResultQuery) (seqId : Nat) : Nat :=
  if some seqId = q.seqIdBegin then q.occlusionCounterBegin else 0

/-- The result after the last that counts for the query in the sequence. -/
def stop (q : VisibilityResultQuery) (seqId numResults : Nat) : Nat :=
  if some seqId = q.seqIdEnd then q.occlusionCounterEnd else numResults

/-- `issue`: adds what the sequence has counted. -/
def issue (q : VisibilityResultQuery) (seqId : Nat) (readbackBuffer : Nat → Count)
    (numResults : Nat) : VisibilityResultQuery :=
  { q with
    accumulatedValue := accumulate readbackBuffer (q.start seqId)
      (q.stop seqId numResults - q.start seqId) q.accumulatedValue
    seqIdIssued := seqId }

/-- `getValue`: only after the last sequence is issued. -/
def getValue (q : VisibilityResultQuery) : Option Count :=
  match q.seqIdEnd with
  | none => none
  | some e => if e ≤ q.seqIdIssued then some q.accumulatedValue else none

end VisibilityResultQuery

/-- `VisibilityResultReadback`: the result buffer of a chunk, and the queries that read it. -/
structure VisibilityResultReadback where
  seqId : Nat
  numResults : Nat
  queries : List Nat
  visibilityResultHeap : Nat → Count

/-- The part of `ArgumentEncodingContext` about queries, with the query objects by number, the
render encoders of the chunk and the readback objects that are still alive, oldest first. -/
structure QueryContext where
  seqId : Nat := 1
  vroState : VisibilityResultOffsetBumpState := {}
  activeVisibilityQueryCount : Nat := 0
  pendingQueries : List Nat := []
  queries : Nat → VisibilityResultQuery := fun _ => {}
  encoders : List (RenderStream Count) := []
  current : RenderStream Count := {}
  readbacks : List VisibilityResultReadback := []

/-- The calls of a run. `flush` is given the number of the chunk after it. -/
inductive QueryCall where
  | beginEncoder
  | draw (n : Count)
  | endEncoder
  | beginQuery (q : Nat)
  | endQuery (q : Nat)
  | flush (next : Nat)
  | destroyReadback

namespace QueryContext

/-- `beginVisibilityResultQuery`. -/
def beginVisibilityResultQuery (s : QueryContext) (q : Nat) : QueryContext :=
  let (offset, vro) := s.vroState.getNextReadOffset
  { s with
    vroState := vro
    queries := Function.update s.queries q ((s.queries q).beginAt s.seqId offset)
    activeVisibilityQueryCount := s.activeVisibilityQueryCount + 1
    pendingQueries := s.pendingQueries ++ [q] }

/-- `endVisibilityResultQuery`. -/
def endVisibilityResultQuery (s : QueryContext) (q : Nat) : QueryContext :=
  let (offset, vro) := s.vroState.getNextReadOffset
  { s with
    vroState := vro
    queries := Function.update s.queries q ((s.queries q).endAt s.seqId offset)
    activeVisibilityQueryCount := s.activeVisibilityQueryCount - 1 }

/-- What the GPU leaves in the slots of the chunk. -/
def counts (s : QueryContext) (slot : Nat) : Count :=
  ((s.encoders ++ [s.current]).map fun r => (r.countedInto slot).sum).sum

/-- The query part of `flushCommands`, then the encoding of the next chunk begins. -/
def flushCommands (s : QueryContext) (next : Nat) : QueryContext :=
  let (count, vro) := s.vroState.reset
  let readbacks :=
    if count ≠ 0 then s.readbacks ++ [⟨s.seqId, count, s.pendingQueries, s.counts⟩]
    else s.readbacks
  { s with
    vroState := vro
    readbacks := readbacks
    pendingQueries := s.pendingQueries.filter fun q => (s.queries q).seqIdEnd ≠ some s.seqId
    seqId := next
    encoders := []
    current := {} }

/-- `~VisibilityResultReadback` of the oldest readback. -/
def destroyReadback (s : QueryContext) : QueryContext :=
  match s.readbacks with
  | [] => s
  | r :: rs =>
    { s with
      readbacks := rs
      queries := r.queries.foldl (fun qs q => Function.update qs q
        ((qs q).issue r.seqId r.visibilityResultHeap r.numResults)) s.queries }

/-- One call. -/
def step (s : QueryContext) : QueryCall → QueryContext
  | .beginEncoder => { s with vroState := s.vroState.beginEncoder, current := {} }
  | .draw n =>
    let (vro, current) := recordDraw s.activeVisibilityQueryCount n s.vroState s.current
    { s with vroState := vro, current := current }
  | .endEncoder =>
    { s with
      vroState := s.vroState.endEncoder
      encoders := s.encoders ++ [s.current]
      current := {} }
  | .beginQuery q => s.beginVisibilityResultQuery q
  | .endQuery q => s.endVisibilityResultQuery q
  | .flush next => s.flushCommands next
  | .destroyReadback => s.destroyReadback

/-- What the callers keep to: draws are inside encoders and flushes outside, a query object is
begun once and ended once after that, and chunk numbers grow. -/
def Allows (s : QueryContext) : QueryCall → Prop
  | .beginEncoder => s.vroState.withinEncoder = false
  | .draw _ | .endEncoder => s.vroState.withinEncoder = true
  | .beginQuery q => s.queries q = {}
  | .endQuery q => (s.queries q).seqIdBegin ≠ none ∧ (s.queries q).seqIdEnd = none
  | .flush next => s.vroState.withinEncoder = false ∧ s.seqId < next
  | .destroyReadback => s.readbacks ≠ []

/-- A run of calls. -/
def run (s : QueryContext) (cs : List QueryCall) : QueryContext := cs.foldl step s

/-- Every call of the run is allowed where it is made. -/
def Valid (s : QueryContext) : List QueryCall → Prop
  | [] => True
  | c :: cs => s.Allows c ∧ (s.step c).Valid cs

/-- The chunks in which a draw was issued while some query was active. -/
def countedChunks (s : QueryContext) : List QueryCall → List Nat
  | [] => []
  | .draw n :: cs =>
    if s.activeVisibilityQueryCount ≠ 0 then s.seqId :: (s.step (.draw n)).countedChunks cs
    else (s.step (.draw n)).countedChunks cs
  | c :: cs => (s.step c).countedChunks cs

end QueryContext

/-- The counts of the draws among some calls. -/
def QueryCall.drawn : QueryCall → Count
  | .draw n => n
  | _ => 0

/-! ## The recorded chunk -/

/-- The bump state agrees with the streams of the chunk, and slots beyond the open one are empty. -/
structure Recording (s : QueryContext) : Prop where
  tracked : s.current.Tracked s.vroState
  closed : s.vroState.withinEncoder = false →
    s.current = {} ∧ s.vroState.previousOffset = none ∧ s.vroState.currentDataIsDirty = false
  unused : ∀ slot, s.vroState.numResults ≤ slot → s.counts slot = 0

namespace QueryContext

variable {s : QueryContext}

theorem counts_eq (s : QueryContext) (slot : Nat) :
    s.counts slot =
      (s.encoders.map fun r => (r.countedInto slot).sum).sum +
      (s.current.countedInto slot).sum := by
  rw [counts, List.map_append, List.sum_append, List.map_singleton, List.sum_singleton]

end QueryContext

namespace Recording

open QueryContext

variable {s : QueryContext}

theorem beginEncoder (h : Recording s) (hc : s.Allows .beginEncoder) :
    Recording (s.step .beginEncoder) ∧ (s.step .beginEncoder).counts = s.counts := by
  obtain ⟨hcur, hprev, -⟩ := h.closed hc
  have hcounts : (s.step .beginEncoder).counts = s.counts := by
    funext slot
    rw [counts_eq, counts_eq, hcur]
    rfl
  refine ⟨⟨RenderStream.tracked_fresh hprev, fun hw => ?_, fun slot hslot => ?_⟩, hcounts⟩
  · cases hw
  · rw [hcounts]
    exact h.unused slot hslot

theorem endEncoder (h : Recording s) :
    Recording (s.step .endEncoder) ∧ (s.step .endEncoder).counts = s.counts ∧
      (s.step .endEncoder).vroState.numResults = s.vroState.numResults := by
  have hcounts : (s.step .endEncoder).counts = s.counts := by
    funext slot
    rw [counts_eq, counts]
    show (List.map _ (s.encoders ++ [s.current])).sum + 0 = _
    exact BitVec.add_zero _
  have hvro : (s.step .endEncoder).vroState = ⟨false, false, none, s.vroState.numResults⟩ :=
    VisibilityResultOffsetBumpState.endEncoder_eq _
  refine ⟨⟨RenderStream.tracked_fresh (by rw [hvro]), fun _ => ⟨rfl, by rw [hvro], by rw [hvro]⟩,
    fun slot hslot => ?_⟩, hcounts, by rw [hvro]; rfl⟩
  rw [hvro] at hslot
  rw [hcounts]
  exact h.unused slot hslot

/-- A draw without active queries leaves the counts alone. With one it adds to the open slot. -/
theorem draw (h : Recording s) (hc : s.Allows (.draw n)) :
    Recording (s.step (.draw n)) ∧
      (s.activeVisibilityQueryCount = 0 →
        (s.step (.draw n)).counts = s.counts ∧
        (s.step (.draw n)).vroState.numResults = s.vroState.numResults) ∧
      (s.activeVisibilityQueryCount ≠ 0 →
        (s.step (.draw n)).counts =
          Function.update s.counts s.vroState.nextOffset (s.counts s.vroState.nextOffset + n) ∧
        (s.step (.draw n)).vroState.numResults = s.vroState.nextOffset + 1) ∧
      (s.step (.draw n)).vroState.nextOffset = s.vroState.nextOffset := by
  obtain ⟨hnext, hwithin, hdirty⟩ := RenderStream.recordDraw_bump (s := s.vroState)
    (r := s.current) s.activeVisibilityQueryCount n
  have hslot := h.tracked.recordDraw_countedInto s.activeVisibilityQueryCount n
  have hquiet : s.activeVisibilityQueryCount = 0 →
      (s.step (.draw n)).counts = s.counts ∧
      (s.step (.draw n)).vroState.numResults = s.vroState.numResults := by
    intro h0
    constructor
    · funext slot
      rw [counts_eq, counts_eq]
      congr 2
      rw [← List.append_nil (s.current.countedInto slot)]
      refine (hslot slot).trans ?_
      rw [if_neg fun hn => hn.1 h0]
    · unfold VisibilityResultOffsetBumpState.numResults
      rw [show (s.step (.draw n)).vroState.nextOffset = _ from hnext,
        show (s.step (.draw n)).vroState.currentDataIsDirty = _ from hdirty, h0, bne_self_eq_false,
        Bool.or_false]
  have hloud : s.activeVisibilityQueryCount ≠ 0 →
      (s.step (.draw n)).counts =
        Function.update s.counts s.vroState.nextOffset (s.counts s.vroState.nextOffset + n) ∧
      (s.step (.draw n)).vroState.numResults = s.vroState.nextOffset + 1 := by
    intro hne
    constructor
    · funext slot
      rw [counts_eq, show (s.step (.draw n)).current.countedInto slot = _ from hslot slot,
        List.sum_append, ← BitVec.add_assoc]
      show (s.encoders.map _).sum + _ + _ = _
      rw [← counts_eq]
      by_cases hs : slot = s.vroState.nextOffset
      · rw [if_pos ⟨hne, hs⟩, hs, Function.update_self, List.sum_singleton]
      · rw [if_neg fun hn => hs hn.2, Function.update_of_ne hs]
        exact BitVec.add_zero _
    · unfold VisibilityResultOffsetBumpState.numResults
      rw [show (s.step (.draw n)).vroState.nextOffset = _ from hnext,
        show (s.step (.draw n)).vroState.currentDataIsDirty = _ from hdirty,
        bne_iff_ne.mpr hne, Bool.or_true]
      rfl
  refine ⟨⟨h.tracked.recordDraw _ _, fun hw => ?_, fun slot hle => ?_⟩, hquiet, hloud, hnext⟩
  · rw [show (s.step (.draw n)).vroState.withinEncoder = _ from hwithin] at hw
    exact absurd (hc.symm.trans hw) Bool.noConfusion
  · by_cases h0 : s.activeVisibilityQueryCount = 0
    · rw [(hquiet h0).2] at hle
      rw [(hquiet h0).1]
      exact h.unused slot hle
    · rw [(hloud h0).2] at hle
      rw [(hloud h0).1, Function.update_of_ne (Nat.ne_of_gt hle)]
      refine h.unused slot (Nat.le_trans ?_ hle)
      unfold VisibilityResultOffsetBumpState.numResults
      cases s.vroState.currentDataIsDirty
      · exact Nat.le_succ _
      · exact Nat.le_refl _

theorem read_eq (h : Recording s) :
    s.vroState.getNextReadOffset = (s.vroState.numResults,
      { s.vroState with currentDataIsDirty := false, nextOffset := s.vroState.numResults }) :=
  VisibilityResultOffsetBumpState.getNextReadOffset_eq fun hw => (h.closed hw).2.2

theorem queries_beginQuery (h : Recording s) (q : Nat) :
    (s.step (.beginQuery q)).queries =
      Function.update s.queries q ((s.queries q).beginAt s.seqId s.vroState.numResults) := by
  show Function.update s.queries q
    ((s.queries q).beginAt s.seqId s.vroState.getNextReadOffset.1) = _
  rw [h.read_eq]

theorem queries_endQuery (h : Recording s) (q : Nat) :
    (s.step (.endQuery q)).queries =
      Function.update s.queries q ((s.queries q).endAt s.seqId s.vroState.numResults) := by
  show Function.update s.queries q
    ((s.queries q).endAt s.seqId s.vroState.getNextReadOffset.1) = _
  rw [h.read_eq]

/-- A read of the offset leaves the counts alone. -/
theorem read (h : Recording s) (s' : QueryContext) (hcur : s'.current = s.current)
    (henc : s'.encoders = s.encoders) (hvro : s'.vroState = s.vroState.getNextReadOffset.2) :
    Recording s' ∧ s'.counts = s.counts ∧
      s'.vroState.numResults = s.vroState.numResults ∧
      s'.vroState.nextOffset = s.vroState.numResults := by
  rw [h.read_eq] at hvro
  have hcounts : s'.counts = s.counts := by
    unfold QueryContext.counts
    rw [hcur, henc]
  refine ⟨⟨?_, fun hw => ?_, fun slot hle => ?_⟩, hcounts, by rw [hvro]; rfl, by rw [hvro]⟩
  · rw [hcur, hvro]
    exact ⟨h.tracked.mode, h.tracked.unused⟩
  · rw [hvro] at hw ⊢
    rw [hcur]
    exact ⟨(h.closed hw).1, (h.closed hw).2.1, rfl⟩
  · rw [hvro] at hle
    rw [hcounts]
    exact h.unused slot hle

theorem flush (h : Recording s) {next : Nat} (hc : s.Allows (.flush next)) :
    Recording (s.step (.flush next)) ∧ (s.step (.flush next)).vroState.numResults = 0 ∧
      s.vroState.nextOffset = s.vroState.numResults := by
  obtain ⟨-, hprev, hdirty⟩ := h.closed hc.1
  have hn : s.vroState.nextOffset = s.vroState.numResults := by
    unfold VisibilityResultOffsetBumpState.numResults
    rw [hdirty]
    rfl
  refine ⟨⟨RenderStream.tracked_fresh hprev, fun _ => ⟨rfl, hprev, hdirty⟩, fun slot _ => rfl⟩,
      ?_, hn⟩
  show 0 + s.vroState.currentDataIsDirty.toNat = 0
  rw [hdirty]
  rfl

end Recording

/-! ## The share of a query -/

/-- Accumulating is a sum over the results. -/
theorem accumulate_eq (heap : Nat → Count) (n start : Nat) (acc : Count) :
    accumulate heap start n acc = acc + ∑ k ∈ Finset.Ico start (start + n), heap k := by
  induction n generalizing start acc with
  | zero => simp [accumulate]
  | succ n ih =>
    rw [accumulate, ih, Finset.sum_eq_sum_Ico_succ_bot (Nat.lt_add_of_pos_right n.succ_pos),
      Nat.succ_add_eq_add_succ, add_assoc]

namespace VisibilityResultQuery

/-- What `issue` adds up. -/
def share (q : VisibilityResultQuery) (seqId : Nat) (heap : Nat → Count) (numResults : Nat) :
    Count :=
  ∑ k ∈ Finset.Ico (q.start seqId) (q.stop seqId numResults), heap k

/-- Issuing adds the sum over the query's own results. -/
theorem issue_eq (q : VisibilityResultQuery) (seqId : Nat) (heap : Nat → Count) (n : Nat) :
    q.issue seqId heap n =
      { q with
        accumulatedValue := q.accumulatedValue + q.share seqId heap n
        seqIdIssued := seqId } := by
  have hico : Finset.Ico (q.start seqId) (q.start seqId + (q.stop seqId n - q.start seqId)) =
      Finset.Ico (q.start seqId) (q.stop seqId n) := by
    rcases Nat.le_total (q.start seqId) (q.stop seqId n) with hle | hle
    · rw [Nat.add_sub_cancel' hle]
    · rw [Nat.sub_eq_zero_of_le hle, Nat.add_zero, Finset.Ico_self, Finset.Ico_eq_empty_of_le hle]
  unfold issue share
  rw [accumulate_eq, hico]

theorem endAt_eq (q : VisibilityResultQuery) (seqId offset : Nat) :
    q.endAt seqId offset =
      { q with
        seqIdEnd := some seqId
        occlusionCounterEnd := offset
        seqIdIssued := if q.seqIdBegin = some seqId ∧ q.occlusionCounterBegin = offset then seqId
          else q.seqIdIssued } := by
  unfold endAt
  dsimp only
  split <;> rfl

theorem start_of_eq {q : VisibilityResultQuery} {seqId : Nat} (h : q.seqIdBegin = some seqId) :
    q.start seqId = q.occlusionCounterBegin := if_pos h.symm

theorem start_of_ne {q : VisibilityResultQuery} {seqId : Nat} (h : q.seqIdBegin ≠ some seqId) :
    q.start seqId = 0 := if_neg fun he => h he.symm

theorem stop_of_ne {q : VisibilityResultQuery} {seqId : Nat} (h : q.seqIdEnd ≠ some seqId)
    (n : Nat) :
    q.stop seqId n = n := if_neg fun he => h he.symm

theorem stop_of_eq {q : VisibilityResultQuery} {seqId : Nat} (h : q.seqIdEnd = some seqId)
    (n : Nat) :
    q.stop seqId n = q.occlusionCounterEnd := if_pos h.symm

end VisibilityResultQuery

namespace QueryContext

/-- What a query has accumulated, with its share of the readbacks and of the recorded chunk. -/
def total (s : QueryContext) (q : Nat) : Count :=
  (s.queries q).accumulatedValue +
    (s.readbacks.map fun r => if q ∈ r.queries then
      (s.queries q).share r.seqId r.visibilityResultHeap r.numResults else 0).sum +
    (if q ∈ s.pendingQueries then
      (s.queries q).share s.seqId s.counts s.vroState.numResults else 0)

end QueryContext

/-! ## The invariant -/

/-- What holds of a query that waits for the end of the chunk. -/
structure PendingQuery (s : QueryContext) (q : Nat) : Prop where
  begun : ∃ b ≤ s.seqId, (s.queries q).seqIdBegin = some b
  start : (s.queries q).start s.seqId ≤ s.vroState.nextOffset
  stop : ∀ e, (s.queries q).seqIdEnd = some e →
    e = s.seqId ∧ (s.queries q).occlusionCounterEnd ≤ s.vroState.nextOffset

/-- What holds of a readback object. -/
structure LiveReadback (s : QueryContext) (r : VisibilityResultReadback) : Prop where
  lt : r.seqId < s.seqId
  nodup : r.queries.Nodup
  begun : ∀ q ∈ r.queries, ∃ b ≤ r.seqId, (s.queries q).seqIdBegin = some b
  ended : ∀ q ∈ r.queries, ∀ e, (s.queries q).seqIdEnd = some e → r.seqId ≤ e

/-- The invariant of a run. -/
structure QueryInv (s : QueryContext) : Prop where
  recording : Recording s
  pos : 0 < s.seqId
  nodup : s.pendingQueries.Nodup
  pending : ∀ q ∈ s.pendingQueries, PendingQuery s q
  active : s.activeVisibilityQueryCount =
    s.pendingQueries.countP fun q => (s.queries q).seqIdEnd.isNone
  open_mem : ∀ q, (s.queries q).seqIdBegin ≠ none → (s.queries q).seqIdEnd = none →
    q ∈ s.pendingQueries ∧ (s.queries q).seqIdIssued < s.seqId
  sorted : s.readbacks.Pairwise fun r r' => r.seqId < r'.seqId
  readback : ∀ r ∈ s.readbacks, LiveReadback s r

/-! ## The accounting -/

namespace QueryContext

variable {s s' : QueryContext} {q p : Nat}

theorem foldl_issue {f : VisibilityResultQuery → VisibilityResultQuery} (l : List Nat)
    (hl : l.Nodup) (qs : Nat → VisibilityResultQuery) (q : Nat) :
    l.foldl (fun qs q => Function.update qs q (f (qs q))) qs q =
      if q ∈ l then f (qs q) else qs q := by
  induction l generalizing qs with
  | nil => rfl
  | cons p l ih =>
    obtain ⟨hp, hl⟩ := List.nodup_cons.mp hl
    rw [List.foldl_cons, ih hl]
    by_cases hq : q = p
    · rw [hq, if_neg hp, Function.update_self, if_pos (List.mem_cons_self ..)]
    · rw [Function.update_of_ne hq]
      simp only [List.mem_cons, hq, false_or]

theorem queries_destroyReadback {r : VisibilityResultReadback} {rs : List VisibilityResultReadback}
    (hr : s.readbacks = r :: rs) (hl : r.queries.Nodup) (q : Nat) :
    (s.step .destroyReadback).queries q =
      if q ∈ r.queries then (s.queries q).issue r.seqId r.visibilityResultHeap r.numResults
      else s.queries q := by
  have hstep : s.step .destroyReadback = s.destroyReadback := rfl
  rw [hstep, destroyReadback, hr]
  exact foldl_issue (f := fun x => x.issue r.seqId r.visibilityResultHeap r.numResults)
    r.queries hl s.queries q

theorem total_congr (hq : s'.queries q = s.queries q) (hr : s'.readbacks = s.readbacks)
    (hp : q ∈ s'.pendingQueries ↔ q ∈ s.pendingQueries) (hid : s'.seqId = s.seqId)
    (hc : s'.counts = s.counts) (hn : s'.vroState.numResults = s.vroState.numResults) :
    s'.total q = s.total q := by
  unfold total
  simp only [hq, hr, hp, hid, hc, hn]

end QueryContext

namespace QueryInv

open QueryContext VisibilityResultQuery

variable {s : QueryContext} {q p : Nat}

/-- While a query is open some query is active, so its draws count. -/
theorem active_ne_zero (h : QueryInv s) (hb : (s.queries q).seqIdBegin ≠ none)
    (he : (s.queries q).seqIdEnd = none) : s.activeVisibilityQueryCount ≠ 0 := by
  rw [h.active]
  refine Nat.ne_of_gt (List.countP_pos_iff.mpr ⟨q, (h.open_mem q hb he).1, ?_⟩)
  rw [he]
  rfl

theorem fresh_not_mem (h : QueryInv s) (hq : (s.queries q).seqIdBegin = none) :
    q ∉ s.pendingQueries ∧ ∀ r ∈ s.readbacks, q ∉ r.queries := by
  constructor
  · intro hp
    obtain ⟨b, -, hb⟩ := (h.pending q hp).begun
    exact Option.some_ne_none b (hb.symm.trans hq)
  · intro r hr hp
    obtain ⟨b, -, hb⟩ := (h.readback r hr).begun q hp
    exact Option.some_ne_none b (hb.symm.trans hq)

/-- The share of a pending query in the chunk, before and after a draw that counts. -/
theorem share_draw (h : QueryInv s) (hp : q ∈ s.pendingQueries) (n : Count) :
    (s.queries q).share s.seqId
        (Function.update s.counts s.vroState.nextOffset (s.counts s.vroState.nextOffset + n))
        (s.vroState.nextOffset + 1) =
      (s.queries q).share s.seqId s.counts s.vroState.numResults +
        if (s.queries q).seqIdEnd = none then n else 0 := by
  obtain ⟨-, hstart, hstop⟩ := h.pending q hp
  unfold share
  cases he : (s.queries q).seqIdEnd with
  | none =>
    have hne : (s.queries q).seqIdEnd ≠ some s.seqId := by
      rw [he]
      exact (Option.some_ne_none _).symm
    have hopen : ∑ k ∈ Finset.Ico ((s.queries q).start s.seqId) s.vroState.numResults, s.counts k =
        ∑ k ∈ Finset.Ico ((s.queries q).start s.seqId) (s.vroState.nextOffset + 1), s.counts k := by
      cases hd : s.vroState.currentDataIsDirty with
      | true =>
        unfold VisibilityResultOffsetBumpState.numResults
        rw [hd]
        rfl
      | false =>
        have hn : s.vroState.numResults = s.vroState.nextOffset := by
          unfold VisibilityResultOffsetBumpState.numResults
          rw [hd]
          rfl
        rw [Finset.sum_Ico_succ_top hstart, hn,
          h.recording.unused _ (Nat.le_of_eq hn), add_zero]
    rw [stop_of_ne hne, stop_of_ne hne, if_pos rfl, hopen, Finset.sum_Ico_succ_top hstart,
      Finset.sum_Ico_succ_top hstart, Function.update_self, add_assoc]
    congr 1
    refine Finset.sum_congr rfl fun k hk => Function.update_of_ne ?_ _ _
    exact Nat.ne_of_lt (Finset.mem_Ico.mp hk).2
  | some e =>
    obtain ⟨rfl, hle⟩ := hstop e he
    rw [stop_of_eq he, stop_of_eq he, if_neg (Option.some_ne_none _), add_zero]
    refine Finset.sum_congr rfl fun k hk => Function.update_of_ne ?_ _ _
    exact Nat.ne_of_lt (Nat.lt_of_lt_of_le (Finset.mem_Ico.mp hk).2 hle)

/-- A draw is counted by the queries that have begun and not ended. -/
theorem total_draw (h : QueryInv s) {n : Count} (hc : s.Allows (.draw n))
    (hb : (s.queries q).seqIdBegin ≠ none) :
    (s.step (.draw n)).total q =
      s.total q + if (s.queries q).seqIdEnd = none then n else 0 := by
  obtain ⟨-, hquiet, hloud, -⟩ := h.recording.draw hc
  by_cases h0 : s.activeVisibilityQueryCount = 0
  · rw [if_neg fun he => h.active_ne_zero hb he h0, add_zero]
    exact total_congr rfl rfl Iff.rfl rfl (hquiet h0).1 (hquiet h0).2
  · obtain ⟨hcounts, hnum⟩ := hloud h0
    unfold total
    rw [hcounts, hnum]
    show (s.queries q).accumulatedValue + _ +
      (if q ∈ s.pendingQueries then (s.queries q).share s.seqId _ _ else 0) = _
    by_cases hp : q ∈ s.pendingQueries
    · rw [if_pos hp, if_pos hp, h.share_draw hp, ← add_assoc]
      rfl
    · rw [if_neg hp, if_neg hp, if_neg fun he => hp (h.open_mem q hb he).1, add_zero, add_zero,
        add_zero]
      rfl

/-- A query that begins owns nothing yet. -/
theorem total_beginQuery (h : QueryInv s) (hc : s.Allows (.beginQuery q)) :
    (s.step (.beginQuery q)).total q = 0 := by
  have hfresh : (s.queries q).seqIdBegin = none := by
    rw [show s.queries q = {} from hc]
  obtain ⟨-, hr⟩ := h.fresh_not_mem hfresh
  obtain ⟨-, hcounts, hnum, -⟩ := h.recording.read (s.step (.beginQuery q)) rfl rfl rfl
  unfold total
  rw [h.recording.queries_beginQuery, Function.update_self, hcounts, hnum]
  show 0 + (s.readbacks.map _).sum +
    (if q ∈ s.pendingQueries ++ [q] then share _ s.seqId _ _ else 0) = 0
  rw [if_pos (List.mem_append_right _ (List.mem_singleton.mpr rfl)),
    List.map_congr_left fun r hr' => if_neg (hr r hr')]
  have hshare : ((s.queries q).beginAt s.seqId s.vroState.numResults).share s.seqId s.counts
      s.vroState.numResults = 0 := by
    unfold share
    rw [stop_of_ne (Option.some_ne_none _).symm, start_of_eq rfl]
    exact Finset.sum_eq_zero fun k hk => absurd (Finset.mem_Ico.mp hk).2
      (Nat.not_lt.mpr (Finset.mem_Ico.mp hk).1)
  rw [hshare]
  simp

/-- Ending a query closes its share where it stands. -/
theorem total_endQuery (h : QueryInv s) (hc : s.Allows (.endQuery q)) :
    (s.step (.endQuery q)).total q = s.total q := by
  obtain ⟨hb, he⟩ := hc
  have hp := (h.open_mem q hb he).1
  obtain ⟨-, hcounts, hnum, -⟩ := h.recording.read (s.step (.endQuery q)) rfl rfl rfl
  have hne : ∀ x, (s.queries q).seqIdEnd ≠ some x := fun x hx =>
    Option.some_ne_none x (hx.symm.trans he)
  unfold total
  rw [h.recording.queries_endQuery, Function.update_self, hcounts, hnum]
  generalize hq : (s.queries q).endAt s.seqId s.vroState.numResults = q'
  rw [endAt_eq] at hq
  have hacc : q'.accumulatedValue = (s.queries q).accumulatedValue := by rw [← hq]
  have hstart : ∀ x, q'.start x = (s.queries q).start x := fun x => by rw [← hq]; rfl
  have hend : q'.seqIdEnd = some s.seqId ∧ q'.occlusionCounterEnd = s.vroState.numResults := by
    rw [← hq]
    exact ⟨rfl, rfl⟩
  have hlast : q'.share s.seqId s.counts s.vroState.numResults =
      (s.queries q).share s.seqId s.counts s.vroState.numResults := by
    unfold share
    rw [hstart, stop_of_eq hend.1, stop_of_ne (hne _), hend.2]
  have hold : ∀ r ∈ s.readbacks, q'.share r.seqId r.visibilityResultHeap r.numResults =
      (s.queries q).share r.seqId r.visibilityResultHeap r.numResults := by
    intro r hr
    have hlt : q'.seqIdEnd ≠ some r.seqId := by
      rw [hend.1]
      exact fun hx => Nat.ne_of_gt (h.readback r hr).lt (Option.some.inj hx)
    unfold share
    rw [hstart, stop_of_ne hlt, stop_of_ne (hne _)]
  have hsum : (s.step (.endQuery q)).readbacks.map (fun r => if q ∈ r.queries then
        q'.share r.seqId r.visibilityResultHeap r.numResults else 0) =
      s.readbacks.map fun r => if q ∈ r.queries then
        (s.queries q).share r.seqId r.visibilityResultHeap r.numResults else 0 :=
    List.map_congr_left fun r hr => by rw [hold r hr]
  rw [hsum, hacc, show (s.step (.endQuery q)).seqId = s.seqId from rfl, hlast]
  rfl

/-- A flush changes no total. -/
theorem total_flush (h : QueryInv s) {next : Nat} (hc : s.Allows (.flush next)) :
    (s.step (.flush next)).total q = s.total q := by
  obtain ⟨-, hnum, hnext⟩ := h.recording.flush hc
  have hempty : ∀ (x n : Nat), (s.queries q).share x (s.step (.flush next)).counts n = 0 :=
    fun x n => Finset.sum_eq_zero fun _ _ => rfl
  have hstep : (s.step (.flush next)).total q =
      (s.queries q).accumulatedValue +
        ((s.step (.flush next)).readbacks.map fun r => if q ∈ r.queries then
          (s.queries q).share r.seqId r.visibilityResultHeap r.numResults else 0).sum := by
    unfold total
    rw [show (s.step (.flush next)).queries = s.queries from rfl, hempty, ite_self, add_zero]
  rw [hstep, show (s.step (.flush next)).readbacks = _ from rfl]
  unfold total
  by_cases hcount : s.vroState.nextOffset = 0
  · have hzero : ∀ x n, (s.queries q).share x s.counts n = 0 := by
      intro x n
      refine Finset.sum_eq_zero fun k _ => h.recording.unused k ?_
      rw [← hnext, hcount]
      exact Nat.zero_le k
    rw [hzero, ite_self, add_zero]
    show _ + (List.map _ (if s.vroState.nextOffset ≠ 0 then _ else s.readbacks)).sum = _
    rw [if_neg fun hn => hn hcount]
  · show _ + (List.map _ (if s.vroState.nextOffset ≠ 0 then
      s.readbacks ++ [⟨s.seqId, s.vroState.nextOffset, s.pendingQueries, s.counts⟩]
      else s.readbacks)).sum = _
    rw [if_pos hcount, List.map_append, List.sum_append, List.map_singleton, List.sum_singleton,
      hnext, add_assoc]

/-- A readback changes no total. -/
theorem total_destroyReadback (h : QueryInv s) (hc : s.Allows .destroyReadback) :
    (s.step .destroyReadback).total q = s.total q := by
  obtain ⟨r, rs, hr⟩ := List.exists_cons_of_ne_nil hc
  have hq := queries_destroyReadback hr (h.readback r (hr ▸ List.mem_cons_self ..)).nodup q
  have hrs : (s.step .destroyReadback).readbacks = rs ∧
      (s.step .destroyReadback).pendingQueries = s.pendingQueries ∧
      (s.step .destroyReadback).seqId = s.seqId ∧
      (s.step .destroyReadback).counts = s.counts ∧
      (s.step .destroyReadback).vroState = s.vroState := by
    have hstep : s.step .destroyReadback = s.destroyReadback := rfl
    rw [hstep, destroyReadback, hr]
    exact ⟨rfl, rfl, rfl, rfl, rfl⟩
  have hshare : ∀ x heap n, ((s.step .destroyReadback).queries q).share x heap n =
      (s.queries q).share x heap n := by
    intro x heap n
    rw [hq]
    split <;> rfl
  unfold total
  simp only [hrs.1, hrs.2.1, hrs.2.2.1, hrs.2.2.2.1, hrs.2.2.2.2, hshare, hr, List.map_cons,
    List.sum_cons]
  congr 1
  rw [hq]
  by_cases hmem : q ∈ r.queries
  · rw [if_pos hmem, if_pos hmem, issue_eq, add_assoc]
  · rw [if_neg hmem, if_neg hmem, zero_add]

end QueryInv

/-! ## The invariant is kept -/

/-- Two states of a query object that began and ended at the same places. -/
structure SameSpan (q q' : VisibilityResultQuery) : Prop where
  seqIdBegin : q'.seqIdBegin = q.seqIdBegin
  counterBegin : q'.occlusionCounterBegin = q.occlusionCounterBegin
  seqIdEnd : q'.seqIdEnd = q.seqIdEnd
  counterEnd : q'.occlusionCounterEnd = q.occlusionCounterEnd

namespace SameSpan

open QueryContext

variable {s s' : QueryContext} {q : Nat}

theorem refl (q : VisibilityResultQuery) : SameSpan q q := ⟨rfl, rfl, rfl, rfl⟩

theorem pending (h : SameSpan (s.queries q) (s'.queries q)) (hid : s'.seqId = s.seqId)
    (hle : s.vroState.nextOffset ≤ s'.vroState.nextOffset) (hp : PendingQuery s q) :
    PendingQuery s' q := by
  obtain ⟨hbegun, hstart, hstop⟩ := hp
  refine ⟨by rw [hid, h.seqIdBegin]; exact hbegun, ?_, fun e he => ?_⟩
  · unfold VisibilityResultQuery.start at hstart ⊢
    rw [hid, h.seqIdBegin, h.counterBegin]
    exact hstart.trans hle
  · obtain ⟨heq, hle'⟩ := hstop e (h.seqIdEnd ▸ he)
    rw [hid, h.counterEnd]
    exact ⟨heq, hle'.trans hle⟩

theorem readback {r : VisibilityResultReadback}
    (h : ∀ q ∈ r.queries, SameSpan (s.queries q) (s'.queries q)) (hid : s.seqId ≤ s'.seqId)
    (hr : LiveReadback s r) : LiveReadback s' r := by
  obtain ⟨hlt, hnd, hbegun, hended⟩ := hr
  refine ⟨Nat.lt_of_lt_of_le hlt hid, hnd, fun q hq => ?_, fun q hq e he => ?_⟩
  · rw [(h q hq).seqIdBegin]
    exact hbegun q hq
  · exact hended q hq e ((h q hq).seqIdEnd ▸ he)

end SameSpan

namespace QueryInv

open QueryContext VisibilityResultQuery

variable {s s' : QueryContext} {q p : Nat}

/-- A step of the recording alone. -/
theorem frame (h : QueryInv s) (hrec : Recording s') (hid : s'.seqId = s.seqId)
    (hq : s'.queries = s.queries) (hp : s'.pendingQueries = s.pendingQueries)
    (hr : s'.readbacks = s.readbacks)
    (ha : s'.activeVisibilityQueryCount = s.activeVisibilityQueryCount)
    (hle : s.vroState.nextOffset ≤ s'.vroState.nextOffset) : QueryInv s' := by
  have hspan : ∀ q, SameSpan (s.queries q) (s'.queries q) := fun q => hq ▸ SameSpan.refl _
  refine ⟨hrec, hid ▸ h.pos, hp ▸ h.nodup, fun q hq' => ?_, ?_, ?_, hr ▸ h.sorted, fun r hr' => ?_⟩
  · exact (hspan q).pending hid hle (h.pending q (hp ▸ hq'))
  · rw [ha, h.active, hp, hq]
  · rw [hid, hp, hq]
    exact h.open_mem
  · exact SameSpan.readback (fun q _ => hspan q) (Nat.le_of_eq hid.symm) (h.readback r (hr ▸ hr'))

theorem nextOffset_le_numResults (v : VisibilityResultOffsetBumpState) :
    v.nextOffset ≤ v.numResults := Nat.le_add_right _ _

/-- A query that begins keeps the invariant. -/
theorem beginQuery (h : QueryInv s) (hc : s.Allows (.beginQuery p)) :
    QueryInv (s.step (.beginQuery p)) := by
  have hfresh : (s.queries p).seqIdBegin = none := by
    rw [show s.queries p = {} from hc]
  obtain ⟨hnot, hrnot⟩ := h.fresh_not_mem hfresh
  obtain ⟨hrec, -, -, hnext⟩ := h.recording.read (s.step (.beginQuery p)) rfl rfl rfl
  have hqs := h.recording.queries_beginQuery p
  have hself : (s.step (.beginQuery p)).queries p =
      (s.queries p).beginAt s.seqId s.vroState.numResults := by
    rw [hqs, Function.update_self]
  have hother : ∀ q, q ≠ p → (s.step (.beginQuery p)).queries q = s.queries q := fun q hq => by
    rw [hqs, Function.update_of_ne hq]
  have hspan : ∀ q, q ≠ p → SameSpan (s.queries q) ((s.step (.beginQuery p)).queries q) :=
    fun q hq => hother q hq ▸ SameSpan.refl _
  refine ⟨hrec, h.pos, ?_, fun q hq => ?_, ?_, fun q hb he => ?_, h.sorted, fun r hr => ?_⟩
  · exact List.nodup_append.mpr ⟨h.nodup, List.nodup_singleton p, fun x hx y hy hxy =>
      hnot (List.mem_singleton.mp hy ▸ hxy ▸ hx)⟩
  · by_cases hqp : q = p
    · subst hqp
      refine ⟨⟨s.seqId, Nat.le_refl _, by rw [hself]; rfl⟩, ?_, fun e he => ?_⟩
      · rw [hself, start_of_eq (by rfl), hnext]
        exact Nat.le_refl _
      · rw [hself] at he
        cases he
    · refine (hspan q hqp).pending rfl ?_ (h.pending q ?_)
      · rw [hnext]
        exact nextOffset_le_numResults _
      · exact (List.mem_append.mp hq).resolve_right fun hs => hqp (List.mem_singleton.mp hs)
  · show s.activeVisibilityQueryCount + 1 = List.countP _ (s.pendingQueries ++ [p])
    rw [List.countP_append, h.active]
    congr 1
    · refine List.countP_congr fun q hq => ?_
      rw [hother q fun he => hnot (he ▸ hq)]
    · rw [List.countP_singleton, hself]
      rfl
  · by_cases hqp : q = p
    · subst hqp
      refine ⟨List.mem_append_right _ (List.mem_singleton.mpr rfl), ?_⟩
      rw [hself, show s.queries q = {} from hc]
      exact h.pos
    · rw [hother q hqp] at hb he ⊢
      obtain ⟨hmem, hlt⟩ := h.open_mem q hb he
      exact ⟨List.mem_append_left _ hmem, hlt⟩
  · exact SameSpan.readback (fun q hq => hspan q fun he => hrnot r hr (he ▸ hq)) (Nat.le_refl _)
      (h.readback r hr)

/-- Ending a query leaves one query less to count. -/
theorem countP_update {P Q : Nat → Bool} {l : List Nat} (hl : l.Nodup) (hp : p ∈ l)
    (hP : P p = true) (hQ : Q p = false) (h : ∀ q, q ≠ p → P q = Q q) :
    l.countP Q = l.countP P - 1 := by
  have hperm := List.perm_cons_erase hp
  have hrest : (l.erase p).countP P = (l.erase p).countP Q :=
    List.countP_congr fun q hq => by
      rw [h q fun he => hl.not_mem_erase (he ▸ hq)]
  rw [hperm.countP_eq, hperm.countP_eq, List.countP_cons_of_pos hP,
    List.countP_cons_of_neg (Bool.not_eq_true _ ▸ hQ), hrest, Nat.add_sub_cancel]

theorem endQuery (h : QueryInv s) (hc : s.Allows (.endQuery p)) :
    QueryInv (s.step (.endQuery p)) := by
  obtain ⟨hb, he⟩ := hc
  have hpend := (h.open_mem p hb he).1
  obtain ⟨hrec, -, -, hnext⟩ := h.recording.read (s.step (.endQuery p)) rfl rfl rfl
  have hqs := h.recording.queries_endQuery p
  have hself : (s.step (.endQuery p)).queries p =
      (s.queries p).endAt s.seqId s.vroState.numResults := by
    rw [hqs, Function.update_self]
  rw [endAt_eq] at hself
  have hother : ∀ q, q ≠ p → (s.step (.endQuery p)).queries q = s.queries q := fun q hq => by
    rw [hqs, Function.update_of_ne hq]
  refine ⟨hrec, h.pos, h.nodup, fun q hq => ?_, ?_, fun q hb' he' => ?_, h.sorted, fun r hr => ?_⟩
  · by_cases hqp : q = p
    · subst hqp
      obtain ⟨hbegun, hstart, -⟩ := h.pending q hpend
      refine ⟨by rw [hself]; exact hbegun, ?_, fun e hend => ?_⟩
      · rw [hself, hnext]
        exact hstart.trans (nextOffset_le_numResults _)
      · rw [hself] at hend ⊢
        rw [hnext]
        exact ⟨(Option.some.inj hend).symm, Nat.le_refl _⟩
    · refine SameSpan.pending (s := s) (hother q hqp ▸ SameSpan.refl _) rfl ?_ (h.pending q hq)
      rw [hnext]
      exact nextOffset_le_numResults _
  · show s.activeVisibilityQueryCount - 1 = List.countP _ s.pendingQueries
    rw [h.active]
    refine (countP_update h.nodup hpend (by rw [he]; rfl) (by rw [hself]; rfl) fun q hq => ?_).symm
    rw [hother q hq]
  · by_cases hqp : q = p
    · subst hqp
      rw [hself] at he'
      cases he'
    · rw [hother q hqp] at hb' he' ⊢
      exact h.open_mem q hb' he'
  · obtain ⟨hlt, hnd, hbegun, hended⟩ := h.readback r hr
    refine ⟨hlt, hnd, fun q hq => ?_, fun q hq e hend => ?_⟩
    · by_cases hqp : q = p
      · subst hqp
        rw [hself]
        exact hbegun q hq
      · rw [hother q hqp]
        exact hbegun q hq
    · by_cases hqp : q = p
      · subst hqp
        rw [hself] at hend
        exact Option.some.inj hend ▸ Nat.le_of_lt hlt
      · rw [hother q hqp] at hend
        exact hended q hq e hend

/-- The readbacks after a flush. -/
theorem readbacks_flush (h : QueryInv s) {next : Nat} (hc : s.Allows (.flush next)) :
    (s.step (.flush next)).readbacks =
      if s.vroState.numResults = 0 then s.readbacks
      else s.readbacks ++ [⟨s.seqId, s.vroState.numResults, s.pendingQueries, s.counts⟩] := by
  rw [← (h.recording.flush hc).2.2]
  show (if s.vroState.nextOffset ≠ 0 then _ else _) = _
  rw [ite_not]

theorem flush (h : QueryInv s) {next : Nat} (hc : s.Allows (.flush next)) :
    QueryInv (s.step (.flush next)) := by
  have hlt : s.seqId < next := hc.2
  have hnew : LiveReadback (s.step (.flush next))
      ⟨s.seqId, s.vroState.numResults, s.pendingQueries, s.counts⟩ :=
    ⟨hlt, h.nodup, fun q hq => (h.pending q hq).begun,
      fun q hq e he => Nat.le_of_eq ((h.pending q hq).stop e he).1.symm⟩
  have hold : ∀ r ∈ s.readbacks, LiveReadback (s.step (.flush next)) r := fun r hr =>
    SameSpan.readback (s := s) (fun q _ => SameSpan.refl _) (Nat.le_of_lt hlt) (h.readback r hr)
  refine ⟨(h.recording.flush hc).1, Nat.zero_lt_of_lt hlt, h.nodup.filter _, fun q hq => ?_, ?_,
    fun q hb he => ?_, ?_, ?_⟩
  · obtain ⟨hq, hne⟩ := List.mem_filter.mp hq
    obtain ⟨⟨b, hle, hb⟩, -, hstop⟩ := h.pending q hq
    have hbn : (s.queries q).seqIdBegin ≠ some next := by
      rw [hb]
      exact fun hbn => Nat.ne_of_lt (Nat.lt_of_le_of_lt hle hlt) (Option.some.inj hbn)
    refine ⟨⟨b, hle.trans (Nat.le_of_lt hlt), hb⟩, ?_, fun e he => ?_⟩
    · show (s.queries q).start next ≤ _
      rw [start_of_ne hbn]
      exact Nat.zero_le _
    · exact absurd ((hstop e he).1 ▸ he) (of_decide_eq_true hne)
  · show s.activeVisibilityQueryCount = List.countP _ (List.filter _ s.pendingQueries)
    rw [h.active, List.countP_filter]
    refine List.countP_congr fun q _ => ?_
    show _ ↔ ((s.queries q).seqIdEnd.isNone && _) = true
    cases (s.queries q).seqIdEnd <;> simp
  · obtain ⟨hmem, hiss⟩ := h.open_mem q hb he
    refine ⟨List.mem_filter.mpr ⟨hmem, decide_eq_true ?_⟩, hiss.trans hlt⟩
    have he' : (s.queries q).seqIdEnd = none := he
    rw [he']
    exact (Option.some_ne_none _).symm
  · rw [h.readbacks_flush hc]
    split
    · exact h.sorted
    · refine List.pairwise_append.mpr ⟨h.sorted, List.pairwise_singleton _ _, fun r hr r' hr' => ?_⟩
      rw [List.mem_singleton.mp hr']
      exact (h.readback r hr).lt
  · rw [h.readbacks_flush hc]
    split
    · exact hold
    · intro r hr
      rcases List.mem_append.mp hr with hr | hr
      · exact hold r hr
      · exact List.mem_singleton.mp hr ▸ hnew

theorem destroyReadback (h : QueryInv s) (hc : s.Allows .destroyReadback) :
    QueryInv (s.step .destroyReadback) := by
  obtain ⟨r, rs, hr⟩ := List.exists_cons_of_ne_nil hc
  have hlive := h.readback r (hr ▸ List.mem_cons_self ..)
  have hq := queries_destroyReadback hr hlive.nodup
  have hspan : ∀ q, SameSpan (s.queries q) ((s.step .destroyReadback).queries q) := by
    intro q
    rw [hq]
    split <;> exact ⟨rfl, rfl, rfl, rfl⟩
  have hstep : s.step .destroyReadback =
      { s with readbacks := rs, queries := (s.step .destroyReadback).queries } := by
    show s.destroyReadback = { s with readbacks := rs, queries := s.destroyReadback.queries }
    unfold QueryContext.destroyReadback
    rw [hr]
  generalize (s.step .destroyReadback).queries = qs at hq hspan hstep
  have hsorted := hr ▸ h.sorted
  rw [hstep]
  refine ⟨⟨h.recording.tracked, h.recording.closed, h.recording.unused⟩, h.pos, h.nodup,
    fun q hq' => ?_, ?_, fun q hb he => ?_, hsorted.of_cons, fun r' hr' => ?_⟩
  · exact SameSpan.pending (s := s) (hspan q) rfl (Nat.le_refl _) (h.pending q hq')
  · refine h.active.trans (List.countP_congr fun q _ => ?_)
    rw [(hspan q).seqIdEnd]
  · rw [(hspan q).seqIdBegin] at hb
    rw [(hspan q).seqIdEnd] at he
    obtain ⟨hmem, hlt⟩ := h.open_mem q hb he
    refine ⟨hmem, ?_⟩
    show (qs q).seqIdIssued < s.seqId
    rw [hq]
    split
    · exact hlive.lt
    · exact hlt
  · exact SameSpan.readback (s := s) (fun q _ => hspan q) (Nat.le_refl _)
      (h.readback r' (hr ▸ List.mem_cons_of_mem _ hr'))

/-- Every call keeps the invariant. -/
theorem step (h : QueryInv s) {c : QueryCall} (hc : s.Allows c) : QueryInv (s.step c) := by
  cases c with
  | beginEncoder =>
    exact h.frame (h.recording.beginEncoder hc).1 rfl rfl rfl rfl rfl (Nat.le_refl _)
  | draw n =>
    obtain ⟨hrec, -, -, hnext⟩ := h.recording.draw hc
    exact h.frame hrec rfl rfl rfl rfl rfl (Nat.le_of_eq hnext.symm)
  | endEncoder =>
    refine h.frame h.recording.endEncoder.1 rfl rfl rfl rfl rfl ?_
    show _ ≤ s.vroState.endEncoder.nextOffset
    rw [VisibilityResultOffsetBumpState.endEncoder_eq]
    exact nextOffset_le_numResults _
  | beginQuery q => exact h.beginQuery hc
  | endQuery q => exact h.endQuery hc
  | flush next => exact h.flush hc
  | destroyReadback => exact h.destroyReadback hc

theorem init : QueryInv {} := by
  refine ⟨⟨RenderStream.tracked_fresh rfl, fun _ => ⟨rfl, rfl, rfl⟩, fun _ _ => rfl⟩, Nat.one_pos,
    List.nodup_nil, fun q hq => absurd hq List.not_mem_nil, rfl, fun q hb _ => absurd rfl hb,
    List.Pairwise.nil, fun r hr => absurd hr List.not_mem_nil⟩

/-- **The accounting.** The total of a query that was begun grows by the draws issued while it is
open. -/
theorem total_step (h : QueryInv s) {c : QueryCall} (hc : s.Allows c)
    (hb : (s.queries q).seqIdBegin ≠ none) :
    (s.step c).total q = s.total q + if (s.queries q).seqIdEnd = none then c.drawn else 0 := by
  have hzero : s.total q = s.total q + if (s.queries q).seqIdEnd = none then 0 else 0 := by
    rw [ite_self, add_zero]
  cases c with
  | draw n => exact h.total_draw hc hb
  | beginEncoder =>
    refine Eq.trans ?_ hzero
    exact total_congr rfl rfl Iff.rfl rfl (h.recording.beginEncoder hc).2 rfl
  | endEncoder =>
    obtain ⟨-, hcounts, hnum⟩ := h.recording.endEncoder
    refine Eq.trans ?_ hzero
    exact total_congr rfl rfl Iff.rfl rfl hcounts hnum
  | beginQuery p =>
    refine Eq.trans ?_ hzero
    have hne : q ≠ p := by
      rintro rfl
      exact hb (by rw [show s.queries q = {} from hc])
    obtain ⟨-, hcounts, hnum, -⟩ := h.recording.read (s.step (.beginQuery p)) rfl rfl rfl
    refine total_congr (s := s) (Function.update_of_ne hne _ _) rfl ?_ rfl hcounts hnum
    show q ∈ s.pendingQueries ++ [p] ↔ _
    rw [List.mem_append, List.mem_singleton]
    exact or_iff_left hne
  | endQuery p =>
    refine Eq.trans ?_ hzero
    by_cases hne : q = p
    · exact hne ▸ h.total_endQuery (hne ▸ hc)
    · obtain ⟨-, hcounts, hnum, -⟩ := h.recording.read (s.step (.endQuery p)) rfl rfl rfl
      exact total_congr (s := s) (Function.update_of_ne hne _ _) rfl Iff.rfl rfl hcounts hnum
  | flush next => exact (h.total_flush hc).trans hzero
  | destroyReadback => exact (h.total_destroyReadback hc).trans hzero

theorem span_step (h : QueryInv s) {c : QueryCall} (hc : s.Allows c)
    (hb : (s.queries q).seqIdBegin ≠ none) (hne : c ≠ .endQuery q) :
    SameSpan (s.queries q) ((s.step c).queries q) := by
  cases c with
  | beginEncoder | draw n | endEncoder | flush next => exact SameSpan.refl _
  | beginQuery p =>
    have hqp : q ≠ p := by
      rintro rfl
      exact hb (by rw [show s.queries q = {} from hc])
    rw [h.recording.queries_beginQuery, Function.update_of_ne hqp]
    exact SameSpan.refl _
  | endQuery p =>
    have hqp : q ≠ p := fun he => hne (he ▸ rfl)
    rw [h.recording.queries_endQuery, Function.update_of_ne hqp]
    exact SameSpan.refl _
  | destroyReadback =>
    obtain ⟨r, rs, hr⟩ := List.exists_cons_of_ne_nil hc
    rw [queries_destroyReadback hr (h.readback r (hr ▸ List.mem_cons_self ..)).nodup]
    split <;> exact ⟨rfl, rfl, rfl, rfl⟩

end QueryInv

/-! ## Runs -/

namespace QueryContext

theorem valid_append (s : QueryContext) (cs ds : List QueryCall) :
    s.Valid (cs ++ ds) ↔ s.Valid cs ∧ (s.run cs).Valid ds := by
  induction cs generalizing s with
  | nil => exact (and_iff_right trivial).symm
  | cons c cs ih => rw [List.cons_append, Valid, Valid, ih, and_assoc]; rfl

theorem run_append (s : QueryContext) (cs ds : List QueryCall) :
    s.run (cs ++ ds) = (s.run cs).run ds := List.foldl_append

theorem countedChunks_append (s : QueryContext) (cs ds : List QueryCall) :
    s.countedChunks (cs ++ ds) = s.countedChunks cs ++ (s.run cs).countedChunks ds := by
  induction cs generalizing s with
  | nil => rfl
  | cons c cs ih =>
    cases c with
    | draw n =>
      rw [List.cons_append, countedChunks, countedChunks, ih]
      split <;> rfl
    | _ => exact ih _

variable {s : QueryContext} {c : QueryCall} {cs : List QueryCall}

theorem seqId_eq (s : QueryContext) {c : QueryCall} (hne : ∀ n, c ≠ .flush n) :
    (s.step c).seqId = s.seqId := by
  cases c with
  | flush next => exact absurd rfl (hne next)
  | destroyReadback =>
    show s.destroyReadback.seqId = _
    unfold destroyReadback
    split <;> rfl
  | _ => rfl

/-- The sequence does not go back. -/
theorem seqId_le (hc : s.Allows c) : s.seqId ≤ (s.step c).seqId := by
  by_cases hflush : ∃ n, c = .flush n
  · obtain ⟨n, rfl⟩ := hflush
    exact Nat.le_of_lt hc.2
  · exact Nat.le_of_eq (s.seqId_eq fun n hn => hflush ⟨n, hn⟩).symm

theorem seqId_le_run (hv : s.Valid cs) : s.seqId ≤ (s.run cs).seqId := by
  induction cs generalizing s with
  | nil => exact Nat.le_refl _
  | cons c cs ih => exact (seqId_le hv.1).trans (ih hv.2)

theorem le_of_mem_countedChunks (hv : s.Valid cs) {e : Nat} (he : e ∈ s.countedChunks cs) :
    s.seqId ≤ e := by
  induction cs generalizing s with
  | nil => exact absurd he List.not_mem_nil
  | cons c cs ih =>
    refine (seqId_le hv.1).trans ?_
    cases c with
    | draw n =>
      rw [countedChunks] at he
      split at he
      · rcases List.mem_cons.mp he with he | he
        · exact Nat.le_of_eq he.symm
        · exact ih hv.2 he
      · exact ih hv.2 he
    | _ => exact ih hv.2 he

end QueryContext

namespace QueryInv

open QueryContext VisibilityResultQuery

variable {s : QueryContext} {q : Nat} {cs : List QueryCall}

/-- The invariant holds after every run. -/
theorem run (h : QueryInv s) (hv : s.Valid cs) : QueryInv (s.run cs) := by
  induction cs generalizing s with
  | nil => exact h
  | cons c cs ih => exact ih (h.step hv.1) hv.2

/-- While a query is open its total follows the draws. -/
theorem open_run (h : QueryInv s) (hv : s.Valid cs) (hb : (s.queries q).seqIdBegin ≠ none)
    (he : (s.queries q).seqIdEnd = none) (hne : .endQuery q ∉ cs) :
    SameSpan (s.queries q) ((s.run cs).queries q) ∧
      (s.run cs).total q = s.total q + (cs.map QueryCall.drawn).sum := by
  induction cs generalizing s with
  | nil => exact ⟨SameSpan.refl _, (BitVec.add_zero _).symm⟩
  | cons c cs ih =>
    obtain ⟨hne, hnes⟩ := not_or.mp (mt List.mem_cons.mpr hne)
    have hspan := h.span_step hv.1 hb (Ne.symm hne)
    obtain ⟨hspans, htotal⟩ := ih (h.step hv.1) hv.2 (hspan.seqIdBegin ▸ hb)
        (hspan.seqIdEnd ▸ he) hnes
    refine ⟨⟨hspans.1.trans hspan.1, hspans.2.trans hspan.2, hspans.3.trans hspan.3,
      hspans.4.trans hspan.4⟩, ?_⟩
    show ((s.step c).run cs).total q = _
    rw [htotal, h.total_step hv.1 hb, if_pos he, List.map_cons, List.sum_cons, BitVec.add_assoc]

/-- After its end nothing is added to it. -/
theorem closed_run (h : QueryInv s) (hv : s.Valid cs) (hb : (s.queries q).seqIdBegin ≠ none)
    (he : (s.queries q).seqIdEnd ≠ none) :
    SameSpan (s.queries q) ((s.run cs).queries q) ∧ (s.run cs).total q = s.total q := by
  induction cs generalizing s with
  | nil => exact ⟨SameSpan.refl _, rfl⟩
  | cons c cs ih =>
    have hne : c ≠ .endQuery q := by
      rintro rfl
      exact he hv.1.2
    have hspan := h.span_step hv.1 hb hne
    obtain ⟨hspans, htotal⟩ := ih (h.step hv.1) hv.2 (hspan.seqIdBegin ▸ hb) (hspan.seqIdEnd ▸ he)
    refine ⟨⟨hspans.1.trans hspan.1, hspans.2.trans hspan.2, hspans.3.trans hspan.3,
      hspans.4.trans hspan.4⟩, ?_⟩
    show ((s.step c).run cs).total q = _
    rw [htotal, h.total_step hv.1 hb, if_neg he, add_zero]

/-- The slots in use after a call other than a flush. -/
theorem numResults_step (h : QueryInv s) {c : QueryCall} (hc : s.Allows c) (hne : ∀ n, c ≠ .flush n)
    (cs : List QueryCall) (e : Nat) :
    s.vroState.numResults ≤ (s.step c).vroState.numResults ∧
      ((e = s.seqId ∧ 0 < (s.step c).vroState.numResults) ∨ e ∈ (s.step c).countedChunks cs ↔
        (e = s.seqId ∧ 0 < s.vroState.numResults) ∨ e ∈ s.countedChunks (c :: cs)) := by
  cases c with
  | flush next => exact absurd rfl (hne next)
  | beginEncoder => exact ⟨Nat.le_refl _, Iff.rfl⟩
  | draw n =>
    obtain ⟨-, hquiet, hloud, -⟩ := h.recording.draw hc
    rw [countedChunks]
    by_cases h0 : s.activeVisibilityQueryCount = 0
    · rw [(hquiet h0).2, if_neg fun hn => hn h0]
      exact ⟨Nat.le_refl _, Iff.rfl⟩
    · rw [(hloud h0).2, if_pos h0, List.mem_cons]
      refine ⟨?_, ?_, ?_⟩
      · unfold VisibilityResultOffsetBumpState.numResults
        cases s.vroState.currentDataIsDirty
        · exact Nat.le_succ _
        · exact Nat.le_refl _
      · rintro (⟨he, -⟩ | he)
        · exact Or.inr (Or.inl he)
        · exact Or.inr (Or.inr he)
      · rintro (⟨he, -⟩ | he | he)
        · exact Or.inl ⟨he, Nat.succ_pos _⟩
        · exact Or.inl ⟨he, Nat.succ_pos _⟩
        · exact Or.inr he
  | endEncoder =>
    rw [h.recording.endEncoder.2.2]
    exact ⟨Nat.le_refl _, Iff.rfl⟩
  | beginQuery p =>
    rw [(h.recording.read (s.step (.beginQuery p)) rfl rfl rfl).2.2.1]
    exact ⟨Nat.le_refl _, Iff.rfl⟩
  | endQuery p =>
    rw [(h.recording.read (s.step (.endQuery p)) rfl rfl rfl).2.2.1]
    exact ⟨Nat.le_refl _, Iff.rfl⟩
  | destroyReadback =>
    have hvro : (s.step .destroyReadback).vroState = s.vroState := by
      show s.destroyReadback.vroState = _
      unfold QueryContext.destroyReadback
      split <;> rfl
    rw [hvro]
    exact ⟨Nat.le_refl _, Iff.rfl⟩

/-- After a flush no result is counted yet. -/
theorem numResults_flush (h : QueryInv s) {next : Nat} (hc : s.Allows (.flush next)) :
    (s.step (.flush next)).vroState.numResults = 0 := (h.recording.flush hc).2.1

/-- The chunk being recorded has a slot in use when it counted a draw. -/
theorem numResults_pos_iff (h : QueryInv s) (hv : s.Valid cs) :
    0 < (s.run cs).vroState.numResults ↔
      ((s.run cs).seqId = s.seqId ∧ 0 < s.vroState.numResults) ∨
        (s.run cs).seqId ∈ s.countedChunks cs := by
  induction cs generalizing s with
  | nil => exact ⟨fun hn => Or.inl ⟨rfl, hn⟩, fun hn => hn.elim (·.2) (absurd · List.not_mem_nil)⟩
  | cons c cs ih =>
    show 0 < ((s.step c).run cs).vroState.numResults ↔
      (((s.step c).run cs).seqId = s.seqId ∧ _) ∨ ((s.step c).run cs).seqId ∈ _
    rw [ih (h.step hv.1) hv.2]
    by_cases hflush : ∃ n, c = .flush n
    · obtain ⟨n, rfl⟩ := hflush
      have hlt : s.seqId < ((s.step (.flush n)).run cs).seqId :=
        Nat.lt_of_lt_of_le hv.1.2 (seqId_le_run hv.2)
      rw [h.numResults_flush hv.1]
      exact or_congr (iff_of_false (fun hn => Nat.lt_irrefl 0 hn.2)
        fun hn => Nat.ne_of_gt hlt hn.1) Iff.rfl
    · have hne : ∀ n, c ≠ .flush n := fun n hn => hflush ⟨n, hn⟩
      rw [s.seqId_eq hne]
      exact (h.numResults_step hv.1 hne cs _).2

end QueryInv

/-! ## Whether the value arrives -/

/-- A query that ended in the chunk being recorded. -/
structure Ended (s : QueryContext) (q b e : Nat) : Prop where
  seqIdBegin : (s.queries q).seqIdBegin = some b
  seqIdEnd : (s.queries q).seqIdEnd = some e
  now : e = s.seqId
  pending : q ∈ s.pendingQueries
  issued : ((s.queries q).seqIdIssued < e ∧ (b = e → 0 < s.vroState.numResults)) ∨
    ((s.queries q).seqIdIssued = e ∧ b = e)

/-- A query that ended in an earlier chunk. Its value `arrives` when the readback of that chunk has
the query, or has given it its value, or was never needed. -/
structure Settled (s : QueryContext) (q b e : Nat) (arrives : Prop) : Prop where
  seqIdBegin : (s.queries q).seqIdBegin = some b
  seqIdEnd : (s.queries q).seqIdEnd = some e
  past : e < s.seqId
  dropped : q ∉ s.pendingQueries
  due : arrives → (∃ r ∈ s.readbacks, r.seqId = e ∧ q ∈ r.queries) ∨
    ((s.queries q).seqIdIssued = e ∧ ∀ r ∈ s.readbacks, q ∈ r.queries → r.seqId = e)
  lost : ¬ arrives → (s.queries q).seqIdIssued < e ∧ ∀ r ∈ s.readbacks, q ∈ r.queries → r.seqId < e

namespace QueryInv

open QueryContext VisibilityResultQuery

variable {s : QueryContext} {q b e : Nat} {cs : List QueryCall}

theorem ended_endQuery (h : QueryInv s) (hc : s.Allows (.endQuery q))
    (hb : (s.queries q).seqIdBegin = some b) : Ended (s.step (.endQuery q)) q b s.seqId := by
  obtain ⟨hmem, hlt⟩ := h.open_mem q hc.1 hc.2
  have hself : (s.step (.endQuery q)).queries q =
      (s.queries q).endAt s.seqId s.vroState.numResults := by
    rw [h.recording.queries_endQuery, Function.update_self]
  rw [endAt_eq] at hself
  refine ⟨by rw [hself]; exact hb, by rw [hself], rfl, hmem, ?_⟩
  rw [hself, (h.recording.read (s.step (.endQuery q)) rfl rfl rfl).2.2.1]
  dsimp only
  split
  · next hsame => exact Or.inr ⟨rfl, Option.some.inj (hb.symm.trans hsame.1)⟩
  · next hdiff =>
    refine Or.inl ⟨hlt, fun hbe => Nat.pos_of_ne_zero fun hzero => hdiff ⟨hbe ▸ hb, ?_⟩⟩
    have hstart := (h.pending q hmem).start.trans (nextOffset_le_numResults _)
    rw [start_of_eq (hbe ▸ hb), hzero] at hstart
    rw [hzero]
    exact Nat.le_zero.mp hstart

/-- What a call does to an ended query and the readbacks that have it: nothing, or the oldest one is
destroyed and issues its share. -/
theorem issued_step (h : QueryInv s) {c : QueryCall} (hc : s.Allows c)
    (hb : (s.queries q).seqIdBegin ≠ none) (he : (s.queries q).seqIdEnd ≠ none) :
    (((s.step c).queries q).seqIdIssued = (s.queries q).seqIdIssued ∧
      (q ∉ s.pendingQueries → ∀ r, q ∈ r.queries →
        (r ∈ (s.step c).readbacks ↔ r ∈ s.readbacks))) ∨
      ∃ r rs, s.readbacks = r :: rs ∧ (s.step c).readbacks = rs ∧ q ∈ r.queries ∧
        ((s.step c).queries q).seqIdIssued = r.seqId := by
  cases c with
  | beginEncoder | draw n | endEncoder => exact Or.inl ⟨rfl, fun _ _ _ => Iff.rfl⟩
  | flush next =>
    refine Or.inl ⟨rfl, fun hnot r hr => ?_⟩
    rw [h.readbacks_flush hc]
    split
    · exact Iff.rfl
    · rw [List.mem_append, List.mem_singleton]
      refine or_iff_left ?_
      rintro rfl
      exact hnot hr
  | beginQuery p =>
    have hqp : q ≠ p := by
      rintro rfl
      exact hb (by rw [show s.queries q = {} from hc])
    rw [h.recording.queries_beginQuery, Function.update_of_ne hqp]
    exact Or.inl ⟨rfl, fun _ _ _ => Iff.rfl⟩
  | endQuery p =>
    have hqp : q ≠ p := by
      rintro rfl
      exact he hc.2
    rw [h.recording.queries_endQuery, Function.update_of_ne hqp]
    exact Or.inl ⟨rfl, fun _ _ _ => Iff.rfl⟩
  | destroyReadback =>
    obtain ⟨r, rs, hr⟩ := List.exists_cons_of_ne_nil hc
    have hrs : (s.step .destroyReadback).readbacks = rs := by
      show s.destroyReadback.readbacks = rs
      unfold QueryContext.destroyReadback
      rw [hr]
    rw [queries_destroyReadback hr (h.readback r (hr ▸ List.mem_cons_self ..)).nodup, hrs]
    by_cases hmem : q ∈ r.queries
    · rw [if_pos hmem]
      exact Or.inr ⟨r, rs, hr, rfl, hmem, rfl⟩
    · rw [if_neg hmem]
      refine Or.inl ⟨rfl, fun _ r' hr' => ?_⟩
      rw [hr, List.mem_cons]
      refine (or_iff_right ?_).symm
      rintro rfl
      exact hmem hr'

/-- The readbacks that have a query were made between its begin and its end. -/
theorem readback_range (h : QueryInv s) (hb : (s.queries q).seqIdBegin = some b)
    (he : (s.queries q).seqIdEnd = some e) {r : VisibilityResultReadback} (hr : r ∈ s.readbacks)
    (hq : q ∈ r.queries) : b ≤ r.seqId ∧ r.seqId ≤ e := by
  obtain ⟨b', hle, hb'⟩ := (h.readback r hr).begun q hq
  cases hb.symm.trans hb'
  exact ⟨hle, (h.readback r hr).ended q hq e he⟩

theorem mem_pending_step {c : QueryCall} (hc : s.Allows c) (hb : (s.queries q).seqIdBegin ≠ none) :
    (q ∈ (s.step c).pendingQueries → q ∈ s.pendingQueries) ∧
      ((∀ n, c ≠ .flush n) → q ∈ s.pendingQueries → q ∈ (s.step c).pendingQueries) := by
  cases c with
  | beginEncoder | draw n | endEncoder | endQuery p => exact ⟨id, fun _ => id⟩
  | flush next => exact ⟨fun hq => (List.mem_filter.mp hq).1, fun hne => absurd rfl (hne next)⟩
  | beginQuery p =>
    have hqp : q ≠ p := by
      rintro rfl
      exact hb (by rw [show s.queries q = {} from hc])
    refine ⟨fun hq => ?_, fun _ hq => List.mem_append_left _ hq⟩
    exact (List.mem_append.mp hq).resolve_right fun hs => hqp (List.mem_singleton.mp hs)
  | destroyReadback =>
    have hp : (s.step .destroyReadback).pendingQueries = s.pendingQueries := by
      show s.destroyReadback.pendingQueries = _
      unfold QueryContext.destroyReadback
      split <;> rfl
    rw [hp]
    exact ⟨id, fun _ => id⟩

/-- An ended query after a call: it ended at most once. -/
theorem span_of_ended (h : QueryInv s) {c : QueryCall} (hc : s.Allows c)
    (hb : (s.queries q).seqIdBegin = some b) (he : (s.queries q).seqIdEnd = some e) :
    SameSpan (s.queries q) ((s.step c).queries q) := by
  refine h.span_step hc (by rw [hb]; exact Option.some_ne_none b) ?_
  rintro rfl
  exact Option.some_ne_none e (he.symm.trans hc.2)

theorem ended_step (h : QueryInv s) {c : QueryCall} (hc : s.Allows c) (hne : ∀ n, c ≠ .flush n)
    (hq : Ended s q b e) : Ended (s.step c) q b e := by
  obtain ⟨hb, he, hnow, hmem, hissued⟩ := hq
  have hspan := h.span_of_ended hc hb he
  have hb' : (s.queries q).seqIdBegin ≠ none := by rw [hb]; exact Option.some_ne_none b
  have he' : (s.queries q).seqIdEnd ≠ none := by rw [he]; exact Option.some_ne_none e
  refine ⟨hspan.seqIdBegin.trans hb, hspan.seqIdEnd.trans he, hnow.trans (s.seqId_eq hne).symm,
    (mem_pending_step hc hb').2 hne hmem, ?_⟩
  rcases h.issued_step hc hb' he' with ⟨hsame, -⟩ | ⟨r, rs, hr, -, hqr, hiss⟩
  · rw [hsame]
    rcases hissued with ⟨hlt, hpos⟩ | hdone
    · exact Or.inl ⟨hlt, fun hbe => Nat.lt_of_lt_of_le (hpos hbe) (h.numResults_step hc hne [] e).1⟩
    · exact Or.inr hdone
  · have hmemr : r ∈ s.readbacks := hr ▸ List.mem_cons_self ..
    have hlt : r.seqId < e := hnow ▸ (h.readback r hmemr).lt
    rw [hiss]
    refine Or.inl ⟨hlt, ?_⟩
    rintro rfl
    exact absurd (h.readback_range hb he hmemr hqr).1 (Nat.not_le.mpr hlt)

/-- The flush of the chunk in which the query ended. -/
theorem ended_flush (h : QueryInv s) {next : Nat} (hc : s.Allows (.flush next))
    (hq : Ended s q b e) :
    Settled (s.step (.flush next)) q b e (b = e ∨ 0 < s.vroState.numResults) := by
  obtain ⟨hb, he, hnow, hmem, hissued⟩ := hq
  have hold : ∀ r ∈ s.readbacks, r.seqId < e := fun r hr => hnow ▸ (h.readback r hr).lt
  refine ⟨hb, he, hnow ▸ hc.2, fun hf => ?_, fun harr => ?_, fun hlost => ?_⟩
  · exact of_decide_eq_true (List.mem_filter.mp hf).2 (hnow ▸ he)
  · rw [h.readbacks_flush hc]
    by_cases hzero : s.vroState.numResults = 0
    · rw [if_pos hzero]
      have hbe : b = e := harr.resolve_right (by rw [hzero]; exact Nat.lt_irrefl 0)
      refine Or.inr ⟨?_, fun r hr hqr => ?_⟩
      · refine (hissued.resolve_left fun hlt => ?_).1
        exact absurd hzero (Nat.ne_of_gt (hlt.2 hbe))
      · exact absurd (hbe ▸ (h.readback_range hb he hr hqr).1) (Nat.not_le.mpr (hold r hr))
    · rw [if_neg hzero]
      exact Or.inl ⟨_, List.mem_append_right _ (List.mem_singleton.mpr rfl), hnow.symm, hmem⟩
  · obtain ⟨hbe, hzero⟩ := not_or.mp hlost
    rw [h.readbacks_flush hc, if_pos (Nat.eq_zero_of_not_pos hzero)]
    exact ⟨(hissued.resolve_right fun hi => hbe hi.2).1, fun r hr _ => hold r hr⟩

theorem settled_step (h : QueryInv s) {c : QueryCall} (hc : s.Allows c) {arrives : Prop}
    (hq : Settled s q b e arrives) : Settled (s.step c) q b e arrives := by
  obtain ⟨hb, he, hpast, hdrop, hdue, hlost⟩ := hq
  have hspan := h.span_of_ended hc hb he
  have hb' : (s.queries q).seqIdBegin ≠ none := by rw [hb]; exact Option.some_ne_none b
  have he' : (s.queries q).seqIdEnd ≠ none := by rw [he]; exact Option.some_ne_none e
  refine ⟨hspan.seqIdBegin.trans hb, hspan.seqIdEnd.trans he,
    Nat.lt_of_lt_of_le hpast (seqId_le hc), fun hmem => hdrop ((mem_pending_step hc hb').1 hmem),
      ?_, ?_⟩
  all_goals
    rcases h.issued_step hc hb' he' with ⟨hsame, hiff⟩ | ⟨r, rs, hr, hrs, hqr, hiss⟩
  · intro harr
    rw [hsame]
    rcases hdue harr with ⟨r, hr, hre, hqr⟩ | ⟨hi, hall⟩
    · exact Or.inl ⟨r, (hiff hdrop r hqr).mpr hr, hre, hqr⟩
    · exact Or.inr ⟨hi, fun r hr hqr => hall r ((hiff hdrop r hqr).mp hr) hqr⟩
  · intro harr
    have hsorted := List.pairwise_cons.mp (hr ▸ h.sorted)
    rw [hiss, hrs]
    rcases hdue harr with ⟨r', hr', hre, hqr'⟩ | ⟨-, hall⟩
    · rw [hr] at hr'
      rcases List.mem_cons.mp hr' with rfl | hr'
      · refine Or.inr ⟨hre, fun r'' hr'' hqr'' => ?_⟩
        have hle := (h.readback_range hb he (hr ▸ List.mem_cons_of_mem _ hr'') hqr'').2
        exact absurd (hsorted.1 r'' hr'') (Nat.not_lt.mpr (hre ▸ hle))
      · exact Or.inl ⟨r', hr', hre, hqr'⟩
    · exact Or.inr ⟨hall r (hr ▸ List.mem_cons_self ..) hqr, fun r' hr' =>
        hall r' (hr ▸ List.mem_cons_of_mem _ hr')⟩
  · intro hnot
    rw [hsame]
    exact ⟨(hlost hnot).1, fun r hr hqr => (hlost hnot).2 r ((hiff hdrop r hqr).mp hr) hqr⟩
  · intro hnot
    rw [hiss, hrs]
    exact ⟨(hlost hnot).2 r (hr ▸ List.mem_cons_self ..) hqr, fun r' hr' =>
      (hlost hnot).2 r' (hr ▸ List.mem_cons_of_mem _ hr')⟩

theorem settled_run (h : QueryInv s) (hv : s.Valid cs) {arrives : Prop}
    (hq : Settled s q b e arrives) : Settled (s.run cs) q b e arrives := by
  induction cs generalizing s with
  | nil => exact hq
  | cons c cs ih => exact ih (h.step hv.1) hv.2 (h.settled_step hv.1 hq)

/-- An ended query once its chunk is flushed. -/
theorem ended_run (h : QueryInv s) (hv : s.Valid cs) (hq : Ended s q b e)
    (hpast : e < (s.run cs).seqId) :
    Settled (s.run cs) q b e
      (b = e ∨ (e = s.seqId ∧ 0 < s.vroState.numResults) ∨ e ∈ s.countedChunks cs) := by
  induction cs generalizing s with
  | nil => exact absurd hq.now (Nat.ne_of_lt hpast)
  | cons c cs ih =>
    by_cases hflush : ∃ n, c = .flush n
    · obtain ⟨n, rfl⟩ := hflush
      have hset := (h.step hv.1).settled_run hv.2 (h.ended_flush hv.1 hq)
      have hnot : e ∉ s.countedChunks (.flush n :: cs) := fun hmem =>
        absurd (hq.now ▸ hv.1.2) (Nat.not_lt.mpr (le_of_mem_countedChunks hv.2 hmem))
      rw [or_iff_left hnot, and_iff_right hq.now]
      exact hset
    · have hne : ∀ n, c ≠ .flush n := fun n hn => hflush ⟨n, hn⟩
      have hset := ih (h.step hv.1) hv.2 (h.ended_step hv.1 hne hq) hpast
      rw [s.seqId_eq hne, (h.numResults_step hv.1 hne cs e).2] at hset
      exact hset

/-- Once the readbacks up to the last chunk are gone, all of the total has been accumulated. -/
theorem getValue_eq (h : QueryInv s) {arrives : Prop} (hq : Settled s q b e arrives)
    (hdone : ∀ r ∈ s.readbacks, e < r.seqId) :
    (arrives → (s.queries q).getValue = some (s.total q)) ∧
      (¬ arrives → (s.queries q).getValue = none) := by
  have hrange : ∀ r ∈ s.readbacks, q ∉ r.queries := fun r hr hqr =>
    Nat.not_le.mpr (hdone r hr) (h.readback_range hq.seqIdBegin hq.seqIdEnd hr hqr).2
  have htotal : s.total q = (s.queries q).accumulatedValue := by
    unfold total
    rw [if_neg hq.dropped, List.map_congr_left fun r hr => if_neg (hrange r hr)]
    simp
  unfold getValue
  rw [hq.seqIdEnd, htotal]
  dsimp only
  constructor
  · intro harr
    rcases hq.due harr with ⟨r, hr, -, hqr⟩ | ⟨hi, -⟩
    · exact absurd hqr (hrange r hr)
    · rw [if_pos (Nat.le_of_eq hi.symm)]
  · intro hnot
    rw [if_neg (Nat.not_le.mpr (hq.lost hnot).1)]

end QueryInv

/-- The number of the chunk that is recorded after some calls. -/
def chunkAfter (cs : List QueryCall) : Nat := (QueryContext.run {} cs).seqId

section Query

open QueryContext

variable {c₁ c₂ c₃ : List QueryCall} {q : Nat}

theorem queries_beginQuery_self {s : QueryContext} (h : QueryInv s) (q : Nat) :
    (s.step (.beginQuery q)).queries q = (s.queries q).beginAt s.seqId s.vroState.numResults := by
  rw [h.recording.queries_beginQuery, Function.update_self]

/-- An open query is ended only once. -/
theorem not_mem_of_valid {s : QueryContext} (h : QueryInv s)
    (hv : s.Valid (c₂ ++ .endQuery q :: c₃)) : .endQuery q ∉ c₂ := by
  intro hmem
  obtain ⟨d₁, d₂, rfl⟩ := List.append_of_mem hmem
  rw [List.append_assoc, List.cons_append, valid_append] at hv
  obtain ⟨hv₁, hend, hv₂⟩ := hv
  have h₁ := h.run hv₁
  obtain ⟨b, hb⟩ := Option.ne_none_iff_exists'.mp hend.1
  have hended := h₁.ended_endQuery hend hb
  rw [valid_append] at hv₂
  have hclosed := ((h₁.step hend).closed_run hv₂.1
    (by rw [hended.seqIdBegin]; exact Option.some_ne_none b)
    (by rw [hended.seqIdEnd]; exact Option.some_ne_none _)).1
  exact Option.some_ne_none _ (hended.seqIdEnd.symm.trans (hclosed.seqIdEnd.symm.trans hv₂.2.1.2))

/-- From the begin of a query to its end. -/
theorem begin_run {s : QueryContext} (h : QueryInv s)
    (hv : s.Valid (.beginQuery q :: (c₂ ++ .endQuery q :: c₃))) :
    QueryInv (s.run (.beginQuery q :: c₂)) ∧
      (s.run (.beginQuery q :: c₂)).Valid (.endQuery q :: c₃) ∧
      ((s.run (.beginQuery q :: c₂)).queries q).seqIdBegin = some s.seqId ∧
      (s.run (.beginQuery q :: c₂)).total q = (c₂.map QueryCall.drawn).sum := by
  obtain ⟨hbegin, hv⟩ := hv
  have h₁ := h.step hbegin
  have hself := queries_beginQuery_self h q
  have hb : ((s.step (.beginQuery q)).queries q).seqIdBegin = some s.seqId := by rw [hself]; rfl
  have hnot := not_mem_of_valid h₁ hv
  rw [valid_append] at hv
  obtain ⟨hspan, htotal⟩ := h₁.open_run hv.1 (by rw [hb]; exact Option.some_ne_none _)
    (by rw [hself]; rfl) hnot
  rw [h.total_beginQuery hbegin, zero_add] at htotal
  exact ⟨h₁.run hv.1, hv.2, hspan.seqIdBegin.trans hb, htotal⟩

/-- From the end of a query to a later chunk. -/
theorem end_run {s : QueryContext} {b : Nat} (h : QueryInv s) (hv : s.Valid (.endQuery q :: c₃))
    (hb : (s.queries q).seqIdBegin = some b) (hpast : s.seqId < (s.run (.endQuery q :: c₃)).seqId) :
    QueryInv (s.run (.endQuery q :: c₃)) ∧
      Settled (s.run (.endQuery q :: c₃)) q b s.seqId
        (b = s.seqId ∨ 0 < s.vroState.numResults ∨ s.seqId ∈ s.countedChunks (.endQuery q :: c₃)) ∧
      (s.run (.endQuery q :: c₃)).total q = s.total q := by
  obtain ⟨hend, hv⟩ := hv
  have h₁ := h.step hend
  have hended := h.ended_endQuery hend hb
  have hset := h₁.ended_run hv hended hpast
  have htotal := (h₁.closed_run hv (by rw [hended.seqIdBegin]; exact Option.some_ne_none _)
    (by rw [hended.seqIdEnd]; exact Option.some_ne_none _)).2
  have hne : ∀ n, QueryCall.endQuery q ≠ .flush n := fun n hn => nomatch hn
  have hiff := (h.numResults_step hend hne c₃ s.seqId).2
  rw [h.total_step hend hend.1, show QueryCall.drawn (.endQuery q) = 0 from rfl, ite_self,
    add_zero] at htotal
  rw [s.seqId_eq hne, hiff, and_iff_right rfl] at hset
  exact ⟨h₁.run hv, hset, htotal⟩

/-- **Occlusion queries.** In every run, when the readbacks of the chunks up to the one in which a
query ended are gone, its value is the sum of the counts of the draws between its begin and its end,
if and only if the query began in that chunk or the chunk counted a draw. -/
theorem query_complete (hv : Valid {} (c₁ ++ .beginQuery q :: (c₂ ++ .endQuery q :: c₃)))
    (hflushed : chunkAfter (c₁ ++ .beginQuery q :: c₂) <
      chunkAfter (c₁ ++ .beginQuery q :: (c₂ ++ .endQuery q :: c₃)))
    (hdone : ∀ r ∈ (run {} (c₁ ++ .beginQuery q :: (c₂ ++ .endQuery q :: c₃))).readbacks,
      chunkAfter (c₁ ++ .beginQuery q :: c₂) < r.seqId) :
    ((run {} (c₁ ++ .beginQuery q :: (c₂ ++ .endQuery q :: c₃))).queries q).getValue =
        some (c₂.map QueryCall.drawn).sum ↔
      chunkAfter c₁ = chunkAfter (c₁ ++ .beginQuery q :: c₂) ∨
        chunkAfter (c₁ ++ .beginQuery q :: c₂) ∈
          countedChunks {} (c₁ ++ .beginQuery q :: (c₂ ++ .endQuery q :: c₃)) := by
  have hsplit : c₁ ++ .beginQuery q :: (c₂ ++ .endQuery q :: c₃) =
      (c₁ ++ .beginQuery q :: c₂) ++ .endQuery q :: c₃ := by
    rw [List.append_assoc, List.cons_append]
  obtain ⟨hv₁, hv₂⟩ := (valid_append _ _ _).mp hv
  obtain ⟨h₂, hv₃, hb, htotal⟩ := begin_run (QueryInv.init.run hv₁) hv₂
  rw [hsplit, valid_append] at hv
  rw [← run_append] at h₂ hv₃ hb htotal
  have hused := QueryInv.init.numResults_pos_iff hv.1
  rw [or_iff_right fun hn => Nat.lt_irrefl 0 hn.2] at hused
  unfold chunkAfter at *
  rw [hsplit] at hdone hflushed ⊢
  rw [countedChunks_append, List.mem_append, ← hused]
  rw [run_append {} (c₁ ++ .beginQuery q :: c₂)] at hdone hflushed ⊢
  obtain ⟨h₃, hset, htotal₃⟩ := end_run h₂ hv₃ hb hflushed
  obtain ⟨hsome, hnone⟩ := h₃.getValue_eq hset hdone
  rw [htotal₃, htotal] at hsome
  constructor
  · intro hval
    by_contra hlost
    exact Option.some_ne_none _ (hval.symm.trans (hnone hlost))
  · exact hsome

/-- Two overlapping queries, the first over a chunk boundary. -/
theorem query_complete_overlapping :
    ((run {} ([] ++ .beginQuery 0 :: ([.beginEncoder, .draw 3, .beginQuery 1, .draw 4, .endEncoder,
      .flush 2, .beginEncoder, .draw 5] ++ .endQuery 0 :: [.draw 6, .endQuery 1, .endEncoder,
      .flush 3, .destroyReadback, .destroyReadback]))).queries 0).getValue =
    some (3 + 4 + 5) := by
  refine (query_complete ?_ ?_ ?_).mpr (Or.inr ?_)
  · exact ⟨rfl, rfl, rfl, rfl, rfl, rfl, ⟨rfl, by decide⟩, rfl, rfl, ⟨nofun, rfl⟩, rfl,
      ⟨nofun, rfl⟩, rfl, ⟨rfl, by decide⟩, nofun, nofun, trivial⟩
  · decide
  · exact fun r hr => nomatch hr
  · decide

/-- A query that ends in a chunk without draws: the chunk has no readback, so it never gets its
value. -/
theorem query_lost :
    Valid {} ([] ++ .beginQuery 0 :: ([.beginEncoder, .draw 5, .endEncoder, .flush 2] ++
      .endQuery 0 :: [.flush 3, .destroyReadback])) ∧
    (run {} ([] ++ .beginQuery 0 :: ([.beginEncoder, .draw 5, .endEncoder, .flush 2] ++
      .endQuery 0 :: [.flush 3, .destroyReadback]))).readbacks = [] ∧
    ((run {} ([] ++ .beginQuery 0 :: ([.beginEncoder, .draw 5, .endEncoder, .flush 2] ++
      .endQuery 0 :: [.flush 3, .destroyReadback]))).queries 0).getValue ≠ some 5 :=
  ⟨⟨rfl, rfl, rfl, rfl, ⟨rfl, by decide⟩, ⟨nofun, rfl⟩, ⟨rfl, by decide⟩, nofun, trivial⟩, rfl,
    by decide⟩

end Query

end Dxmt
