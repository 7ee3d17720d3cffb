import Dxmt.Tracker

/-!
# Hazards between encoders: the accesses, the fences and their order

One resource, and the encoders that access it in the order of their ids. Encoder `y` is ordered
after encoder `x` through the wait sets its accesses fill in (`Before`), and the pre-raster half of
a render encoder comes before its fragment half. Two conflicting accesses less than 64 ids apart
should then be ordered (`HazardsCovered`).

They are not always. `exclusive` holds one id, and a render encoder has two. A pre-raster write
after a fragment write moves it back to the pre-raster id, and the fragment half drops out of the
record; `RenderSafe` lists the patterns of accesses that lose something.

Results: `Opened` and `Closed` are what the tracker knows before and after the first write of an
encoder, with one lemma per access. `compute_spec` and `render_spec` sum up a whole encoder,
`History.next` carries the history over it, and `hazards_covered` is the induction over the run.
`hazards_lost` is a run of two encoders that loses a write.

Source: `dxmt_deptrack.cpp:6-238`, `dxmt_context.hpp:964-1003`.
-/

namespace Dxmt

open TrackingSet GenericAccessTracker TrackState

/-- An encoder as one tracker sees it: a compute encoder (also a blit or a clear) with its id, or a
render encoder with its pre-raster id. -/
inductive TrackedEncoder where
  | compute (id : Nat) (accesses : List ResourceAccess)
  | render (idVertex : Nat) (accesses : List RenderAccess)

/-- An access, under the id of its stage. -/
structure Access where
  id : Nat
  write : Bool

/-- The id of a stage: `encoder_id_vertex`, or the `id` drawn right after it. -/
def RenderStage.id (v : Nat) : RenderStage → Nat
  | .preRaster => v
  | .fragment => v + 1

namespace TrackedEncoder

/-- The smallest id of the encoder. -/
def first : TrackedEncoder → Nat
  | compute id _ => id
  | render v _ => v

/-- `EncoderData::id`, the largest id of the encoder. -/
def last : TrackedEncoder → Nat
  | compute id _ => id
  | render v _ => v + 1

/-- The accesses of the encoder. -/
def accesses : TrackedEncoder → List Access
  | compute id as => as.map fun a => ⟨id, a.write⟩
  | render v as => as.map fun a => ⟨a.stage.id v, a.flags.write⟩

/-- The calls of `track` the encoder makes. -/
def track (t : GenericAccessTracker) : TrackedEncoder → TrackState
  | compute id as => as.foldl (trackCompute id) (start t)
  | render v as => as.foldl (trackRender v) (start t)

/-- The order that an encoder adds: its waits, per stage, and pre-raster before fragment. -/
def Edge (s : TrackState) (x y : Nat) : TrackedEncoder → Prop
  | compute id _ => y = id ∧ WaitsOn s.fenceWait x y
  | render v _ => (y = v ∧ WaitsOn s.fenceWaitVertex x y) ∨ (y = v + 1 ∧ WaitsOn s.fenceWait x y) ∨
      (x = v ∧ y = v + 1)

end TrackedEncoder

/-- The encoders with what `track` filled in for each. -/
def runEncoders (t : GenericAccessTracker) :
    List TrackedEncoder → List (TrackedEncoder × TrackState)
  | [] => []
  | e :: es => (e, e.track t) :: runEncoders (e.track t).tracker es

/-- Id `y` is ordered after id `x`. -/
def Before (run : List (TrackedEncoder × TrackState)) : Nat → Nat → Prop :=
  Relation.TransGen fun x y => ∃ p ∈ run, p.1.Edge p.2 x y

/-- Accesses `b` and `a` of two encoders conflict and are close enough to be tracked. -/
def Conflict (b a : Access) : Prop := (b.write = true ∨ a.write = true) ∧ a.id < b.id + kLane

/-- Of two encoders, a conflicting access of the later one is ordered after that of the earlier. -/
def HazardsCovered (run : List (TrackedEncoder × TrackState)) : Prop :=
  run.Pairwise fun p q => ∀ b ∈ p.1.accesses, ∀ a ∈ q.1.accesses,
    Conflict b a → Before run b.id a.id

/-- Ids start at 256 and grow. -/
structure IssuedInOrder (es : List TrackedEncoder) : Prop where
  start : ∀ e ∈ es, 256 ≤ e.first
  order : es.Pairwise fun e f => e.last < f.first

/-- A fragment write, then a pre-raster write; the encoder after it writes too. -/
def lostFragmentWrite : List TrackedEncoder :=
  [.render 256 [⟨.fragment, ⟨true, true⟩⟩, ⟨.preRaster, ⟨true, true⟩⟩],
    .compute 258 [⟨true, true⟩]]

/-- The second encoder waits on the pre-raster half of the first, and on nothing else. -/
theorem lostFragmentWrite_before {x y : Nat}
    (h : Before (runEncoders (.init fun _ => 0) lostFragmentWrite) x y) : x = 256 := by
  have hedge : ∀ x y, (∃ p ∈ runEncoders (.init fun _ => 0) lostFragmentWrite,
      p.1.Edge p.2 x y) → x = 256 := by
    rintro x y ⟨p, hp, he⟩
    rcases List.mem_cons.mp hp with rfl | hp
    · rcases he with ⟨-, he, -⟩ | ⟨-, he, -⟩ | ⟨rfl, -⟩
      · exact absurd he (FenceSet.not_mem_empty x)
      · exact absurd he (FenceSet.not_mem_empty x)
      · rfl
    · obtain rfl := List.mem_singleton.mp hp
      obtain ⟨rfl, hw, h1, h2⟩ := he
      have hset : (((lostFragmentWrite.getLast (by decide)).track
        ((lostFragmentWrite.head (by decide)).track (.init fun _ => 0)).tracker)).fenceWait =
          FenceSet.single 256 := by decide
      have := (FenceSet.mem_single 256 x).mp (hset ▸ hw)
      rw [kParityLane_eq] at h2
      omega
  cases Relation.TransGen.head'_iff.mp h with
  | intro z hz => exact hedge x z hz.1

/-- **A write is lost.** The later encoder is not ordered after the fragment write. -/
theorem hazards_lost :
    ¬ ∀ garbage es, IssuedInOrder es → HazardsCovered (runEncoders (.init garbage) es) := by
  intro h
  have hcov := h (fun _ => 0) lostFragmentWrite ⟨by decide, by decide⟩
  have hb := (List.pairwise_cons.mp hcov).1 _ (List.mem_singleton.mpr rfl) ⟨257, true⟩
    (List.mem_cons_self ..) ⟨258, true⟩ (List.mem_cons_self ..) ⟨Or.inl rfl, by decide⟩
  exact absurd (lostFragmentWrite_before hb) (by decide)

/-! ## The patterns that lose a hazard -/

/-- The stage of the last write, after a write at `stage`. -/
def lastWriteStage (stage : RenderStage) (later : List RenderAccess) : RenderStage :=
  later.foldl (fun st a => if a.flags.write then a.stage else st) stage

/-- The accesses of a render encoder to one resource, split at the first write.

* First write at the fragment stage: a pre-raster write after it, or the first pre-raster read
  after it, fills in no wait.
* First write at the pre-raster stage: if the last write is one too, the record forgets the
  fragment half. A pre-raster read followed by a fragment one takes two entries of the ring, so the
  write may miss the oldest of 63 readers. -/
def RenderSafe (as : List RenderAccess) : Prop :=
  let earlier := as.takeWhile fun a => !a.flags.write
  match as.dropWhile fun a => !a.flags.write with
  | [] => True
  | w :: later =>
    match w.stage with
    | .fragment => ∀ a ∈ later, a.stage = .preRaster →
        a.flags.write = false ∧ ∃ r ∈ earlier, r.stage = .preRaster
    | .preRaster =>
      (lastWriteStage .preRaster later = .fragment ∨ ∀ a ∈ as, a.stage = .preRaster) ∧
      ((∃ r ∈ earlier.head?, r.stage = .fragment) ∨ ∀ r ∈ earlier, r.stage = .preRaster)

/-- Every render encoder keeps to the safe patterns. -/
def TrackedEncoder.Safe : TrackedEncoder → Prop
  | .compute _ _ => True
  | .render _ as => RenderSafe as

/-! ## What an access does before and after the first write of its encoder

`e` is the last writer and `L` are the readers since, when the encoder begins. -/

/-- The record of the earlier encoders, whose ids are below `base`. -/
structure Record (e : Nat) (L : List Nat) (base : Nat) : Prop where
  sorted : L.Pairwise (· > ·)
  lt : ∀ x ∈ L, x < base
  exclusive_lt : e < base
  base_ge : 256 ≤ base

/-- The wait set of stage `id` holds the last writer. -/
def WriterIn (e id : Nat) (wait : FenceSet) : Prop := e ≠ 0 → id < e + 64 → e ∈ wait

/-- The wait set of stage `id` holds the readers. -/
def ReadersIn (L : List Nat) (id : Nat) (wait : FenceSet) : Prop := ∀ x ∈ L, id < x + 64 → x ∈ wait

theorem writerIn_waitExclusive {e id : Nat} (wait : FenceSet) (h : e ≤ id) :
    WriterIn e id (waitExclusive e id wait) := by
  intro _ hlt
  rw [waitExclusive, if_pos (by rw [kLane_eq]; omega)]
  exact (FenceSet.mem_set _ _ _).mpr (Or.inl rfl)

theorem waitExclusive_mono {e id x : Nat} {wait : FenceSet} (h : x ∈ wait) :
    x ∈ waitExclusive e id wait := by
  unfold waitExclusive
  split
  · exact (FenceSet.mem_set _ _ _).mpr (Or.inr h)
  · exact h

theorem writerIn_waitLastExclusive {e id : Nat} (wait : FenceSet) :
    WriterIn e id (waitLastExclusive e wait) := by
  intro h0 _
  rw [waitLastExclusive, if_pos h0]
  exact (FenceSet.mem_set _ _ _).mpr (Or.inl rfl)

theorem waitLastExclusive_mono {e x : Nat} {wait : FenceSet} (h : x ∈ wait) :
    x ∈ waitLastExclusive e wait := by
  unfold waitLastExclusive
  split
  · exact (FenceSet.mem_set _ _ _).mpr (Or.inr h)
  · exact h

/-- A write fills in the readers, also behind entries of its own encoder: `news` are those, and
there is room for them if the oldest one is not pushed out. -/
theorem readersIn_waitShared {t : TrackingSet} {news L : List Nat} {e base id : Nat}
    (h : Ring t (news ++ L)) (hs : (news ++ L).Pairwise (· > ·)) (hr : Record e L base)
    (hid : base ≤ id) (hroom : base + news.length ≤ id + 1) (wait : FenceSet) :
    ReadersIn L id (waitShared t id wait) := by
  intro x hx hwin
  have hb := hr.base_ge
  have hxlt := hr.lt x hx
  obtain ⟨j, hj⟩ := List.getElem?_of_mem hx
  have hjx : j + x ≤ base - 1 := by
    refine add_le_of_getElem? hr.sorted (fun y hy => ?_) hj
    have := hr.lt y (List.mem_of_mem_head? hy)
    omega
  refine mem_enumerate h hs (by omega) (j := news.length + j) ?_ (by omega) (by omega) hwin
  rw [List.getElem?_append_right (by omega), Nat.add_sub_cancel_left]
  exact hj

/-! ### Compute encoders -/

/-- Before the first write of the encoder `id`: its reads (`rd`: there is one) are at the front of
the ring, and have filled in the last writer. -/
structure ComputeOpen (e : Nat) (L : List Nat) (id : Nat) (rd : Bool) (s : TrackState) : Prop where
  exclusive : s.tracker.exclusive = e
  ring : Ring s.tracker.shared ((if rd then [id] else []) ++ L)
  writer : rd = true → WriterIn e id s.fenceWait

/-- From the first write on: the encoder is the last writer, and waits on all that came before. -/
structure ComputeClosed (e : Nat) (L : List Nat) (id : Nat) (s : TrackState) : Prop where
  exclusive : s.tracker.exclusive = id
  ring : Ring s.tracker.shared []
  writer : WriterIn e id s.fenceWait
  readers : ReadersIn L id s.fenceWait

variable {e : Nat} {L : List Nat} {id : Nat} {rd : Bool} {s : TrackState}

theorem Record.sorted_cons (hr : Record e L id) : (id :: L).Pairwise (· > ·) :=
  List.pairwise_cons.mpr ⟨fun x hx => hr.lt x hx, hr.sorted⟩

theorem Record.head?_ne (hr : Record e L id) {x : Nat} (hx : id ≤ x) : L.head? ≠ some x := by
  intro h
  have := hr.lt x (List.mem_of_mem_head? h)
  omega

theorem ComputeOpen.read (hr : Record e L id) (h : ComputeOpen e L id rd s) {flags : ResourceAccess}
    (hf : flags.write = false) :
    ComputeOpen e L id true (trackCompute id s flags) := by
  have he := hr.exclusive_lt
  have hid := hr.base_ge
  have hne : ¬ s.tracker.exclusive = id := by rw [h.exclusive]; omega
  have hlast := isLastAccess_iff h.ring (show id ≠ 0 by omega)
  simp only [trackCompute, hf, Bool.false_eq_true, if_false, withFenceWait, accessShared,
    if_neg hne]
  cases rd with
  | true =>
    rw [if_pos (hlast.mpr rfl)]
    exact h
  | false =>
    rw [if_neg (by rw [hlast]; exact hr.head?_ne le_rfl)]
    refine ⟨h.exclusive, ring_add h.ring (by omega) (hr.head?_ne le_rfl), fun _ => ?_⟩
    dsimp only
    rw [h.exclusive]
    exact writerIn_waitExclusive _ (by omega)

theorem ComputeOpen.write (hr : Record e L id) (h : ComputeOpen e L id rd s)
    {flags : ResourceAccess} (hf : flags.write = true) :
    ComputeClosed e L id (trackCompute id s flags) := by
  have he := hr.exclusive_lt
  have hne : ¬ s.tracker.exclusive = id := by rw [h.exclusive]; omega
  simp only [trackCompute, hf, if_true, withFenceWait, accessExclusive, if_neg hne]
  refine ⟨rfl, ring_clear h.ring.cursor_lt, ?_, fun x hx hwin => waitExclusive_mono ?_⟩
  · rw [h.exclusive]
    exact writerIn_waitExclusive _ (by omega)
  · refine readersIn_waitShared h.ring ?_ hr le_rfl ?_ _ x hx hwin
    · cases rd
      · exact hr.sorted
      · exact hr.sorted_cons
    · cases rd <;> simp

theorem ComputeClosed.step (h : ComputeClosed e L id s) (flags : ResourceAccess) :
    ComputeClosed e L id (trackCompute id s flags) := by
  cases hf : flags.write with
  | true =>
    simp only [trackCompute, hf, if_true, withFenceWait, accessExclusive, if_pos h.exclusive]
    exact ⟨h.exclusive, h.ring, h.writer, h.readers⟩
  | false =>
    simp only [trackCompute, hf, Bool.false_eq_true, if_false, withFenceWait, accessShared,
      if_pos h.exclusive]
    split
    · exact h
    · exact ⟨h.exclusive, h.ring, h.writer, h.readers⟩

theorem ComputeClosed.run (as : List ResourceAccess) :
    ∀ {s : TrackState}, ComputeClosed e L id s →
      ComputeClosed e L id (as.foldl (trackCompute id) s) := by
  induction as with
  | nil => exact fun h => h
  | cons a as ih => exact fun h => ih (h.step a)

/-- The whole encoder: it stays open if it only reads. -/
theorem ComputeOpen.run (hr : Record e L id) (as : List ResourceAccess) :
    ∀ {rd : Bool} {s : TrackState}, ComputeOpen e L id rd s →
      if ∃ a ∈ as, a.write = true then ComputeClosed e L id (as.foldl (trackCompute id) s)
      else ComputeOpen e L id (rd || !as.isEmpty) (as.foldl (trackCompute id) s) := by
  induction as with
  | nil =>
    intro rd s h
    rw [if_neg (by simp), List.isEmpty_nil, Bool.not_true, Bool.or_false]
    exact h
  | cons a as ih =>
    intro rd s h
    rw [List.foldl_cons]
    cases hf : a.write with
    | true =>
      rw [if_pos ⟨a, List.mem_cons_self .., hf⟩]
      exact (h.write hr hf).run as
    | false =>
      have hnext := ih (h.read hr hf)
      have hiff : (∃ b ∈ a :: as, b.write = true) ↔ ∃ b ∈ as, b.write = true := by
        simp [hf]
      simpa only [hiff, Bool.true_or, List.isEmpty_cons, Bool.not_false, Bool.or_true] using hnext

/-! ### Render encoders -/

/-- The entries of the encoder's own reads in the ring (`pr`, `fr`: there is a pre-raster, a
fragment read). A fragment read hides a pre-raster one after it. -/
inductive ReadEntries (v : Nat) : (pr fr : Bool) → List Nat → Prop
  | none : ReadEntries v false false []
  | preRaster : ReadEntries v true false [v]
  | fragment (pr : Bool) : ReadEntries v pr true [v + 1]
  | both : ReadEntries v true true [v + 1, v]

/-- The entries after one more read. -/
def addRead (v : Nat) (news : List Nat) : RenderStage → List Nat
  | .preRaster => if news = [] then [v] else news
  | .fragment => if v + 1 ∈ news then news else (v + 1) :: news

/-- Before the first write of the render encoder. -/
structure RenderOpen (e : Nat) (L : List Nat) (v : Nat) (pr fr : Bool) (news : List Nat)
    (s : TrackState) : Prop where
  entries : ReadEntries v pr fr news
  exclusive : s.tracker.exclusive = e
  ring : Ring s.tracker.shared (news ++ L)
  flag : news ≠ [] → s.tracker.isSharedPreRaster = pr
  writerVertex : pr = true → WriterIn e v s.fenceWaitVertex
  writer : fr = true → WriterIn e (v + 1) s.fenceWait

/-- From the first write on: the last one was at `stage`, and nothing waits any more. -/
structure RenderClosed (v : Nat) (stage : RenderStage) (waitVertex wait : FenceSet)
    (s : TrackState) : Prop where
  exclusive : s.tracker.exclusive = stage.id v
  ring : Ring s.tracker.shared []
  fenceWaitVertex : s.fenceWaitVertex = waitVertex
  fenceWait : s.fenceWait = wait

variable {v : Nat} {pr fr : Bool} {news : List Nat} {a : RenderAccess}

theorem ReadEntries.sorted (h : ReadEntries v pr fr news) (hr : Record e L v) :
    (news ++ L).Pairwise (· > ·) := by
  have hv := hr.sorted_cons
  have hw : ((v + 1) :: L).Pairwise (· > ·) :=
    List.pairwise_cons.mpr ⟨fun x hx => Nat.lt_succ_of_lt (hr.lt x hx), hr.sorted⟩
  cases h with
  | none => exact hr.sorted
  | preRaster => exact hv
  | fragment => exact hw
  | both =>
    refine List.pairwise_cons.mpr ⟨fun x hx => ?_, hv⟩
    rcases List.mem_cons.mp hx with rfl | hx
    · exact Nat.lt_succ_self _
    · exact Nat.lt_succ_of_lt (hr.lt x hx)

theorem ReadEntries.length_le (h : ReadEntries v pr fr news) : news.length ≤ 2 := by
  cases h <;> simp

theorem ReadEntries.le (h : ReadEntries v pr fr news) : ∀ x ∈ news, x ≤ v + 1 := by
  cases h <;> simp

theorem ReadEntries.mem_preRaster (h : ReadEntries v true fr news) : v ∈ news ∨ v + 1 ∈ news := by
  cases h <;> simp

theorem ReadEntries.mem_fragment (h : ReadEntries v pr true news) : v + 1 ∈ news := by
  cases h <;> simp

/-- A pre-raster read, by what the encoder read before. -/
theorem RenderOpen.read_preRaster (hr : Record e L v) (h : RenderOpen e L v pr fr news s)
    (ha : a.stage = .preRaster) (hf : a.flags.write = false) :
    RenderOpen e L v true fr (addRead v news .preRaster) (trackRender v s a) := by
  have he := hr.exclusive_lt
  have hv := hr.base_ge
  have hw1 : ¬ s.tracker.exclusive = v + 1 := by rw [h.exclusive]; omega
  have hv1 : ¬ s.tracker.exclusive = v := by rw [h.exclusive]; omega
  have hlastw := isLastAccess_iff h.ring (show v + 1 ≠ 0 by omega)
  have hlastv := isLastAccess_iff h.ring (show v ≠ 0 by omega)
  have hwait : WriterIn e v (waitExclusive s.tracker.exclusive v s.fenceWaitVertex) := by
    rw [h.exclusive]
    exact writerIn_waitExclusive _ (by omega)
  simp only [trackRender, ha, hf, Bool.false_eq_true, if_false, withFenceWaitVertex,
    accessSharedPreRaster, if_neg hw1, if_neg hv1]
  cases h.entries with
  | none =>
    rw [if_neg (by rw [hlastw]; exact hr.head?_ne (Nat.le_succ v)),
      if_neg (by rw [hlastv]; exact hr.head?_ne le_rfl)]
    exact ⟨.preRaster, h.exclusive, ring_add h.ring (by omega) (hr.head?_ne le_rfl),
      fun _ => rfl, fun _ => hwait, fun hfr => absurd hfr (by decide)⟩
  | preRaster =>
    rw [if_neg (by rw [hlastw]; simp), if_pos (hlastv.mpr rfl)]
    exact ⟨.preRaster, h.exclusive, h.ring, h.flag, h.writerVertex, h.writer⟩
  | fragment =>
    rw [if_pos (hlastw.mpr rfl)]
    have hflag := h.flag (List.cons_ne_nil _ _)
    split
    · next hsp =>
      exact ⟨.fragment true, h.exclusive, h.ring, fun _ => hsp,
        fun _ => h.writerVertex (hflag ▸ hsp), h.writer⟩
    · exact ⟨.fragment true, h.exclusive, h.ring, fun _ => rfl, fun _ => hwait, h.writer⟩
  | both =>
    rw [if_pos (hlastw.mpr rfl), if_pos (h.flag (List.cons_ne_nil _ _))]
    exact ⟨.both, h.exclusive, h.ring, h.flag, h.writerVertex, h.writer⟩

/-- A fragment read, by what the encoder read before. -/
theorem RenderOpen.read_fragment (hr : Record e L v) (h : RenderOpen e L v pr fr news s)
    (ha : a.stage = .fragment) (hf : a.flags.write = false) :
    RenderOpen e L v pr true (addRead v news .fragment) (trackRender v s a) := by
  have he := hr.exclusive_lt
  have hv := hr.base_ge
  have hw1 : ¬ s.tracker.exclusive = v + 1 := by rw [h.exclusive]; omega
  have hv1 : ¬ s.tracker.exclusive = v := by rw [h.exclusive]; omega
  have hlastw := isLastAccess_iff h.ring (show v + 1 ≠ 0 by omega)
  have hlastv := isLastAccess_iff h.ring (show v ≠ 0 by omega)
  have hwait : WriterIn e (v + 1) (waitExclusive s.tracker.exclusive (v + 1) s.fenceWait) := by
    rw [h.exclusive]
    exact writerIn_waitExclusive _ (by omega)
  simp only [trackRender, ha, hf, Bool.false_eq_true, if_false, withFenceWait,
    accessSharedFragment, if_neg hw1, Nat.add_sub_cancel, if_neg hv1]
  cases h.entries with
  | none =>
    have hnew : L.head? ≠ some (v + 1) := hr.head?_ne (Nat.le_succ v)
    rw [if_neg (by rw [hlastw]; exact hnew)]
    refine ⟨.fragment false, h.exclusive, ring_add h.ring (by omega) hnew, fun _ => ?_,
      h.writerVertex, fun _ => hwait⟩
    exact if_neg (by rw [hlastv]; exact hr.head?_ne le_rfl)
  | preRaster =>
    have hnew : ([v] ++ L).head? ≠ some (v + 1) := by simp
    rw [if_neg (by rw [hlastw]; exact hnew)]
    have hadd : addRead v [v] .fragment = [v + 1, v] := by simp [addRead]
    rw [hadd]
    refine ⟨.both, h.exclusive, ring_add h.ring (by omega) hnew, fun _ => ?_,
      h.writerVertex, fun _ => hwait⟩
    exact (if_pos (hlastv.mpr rfl)).trans (h.flag (List.cons_ne_nil _ _))
  | fragment =>
    rw [if_pos (hlastw.mpr rfl)]
    have hadd : addRead v [v + 1] .fragment = [v + 1] := by simp [addRead]
    rw [hadd]
    exact ⟨.fragment _, h.exclusive, h.ring, h.flag, h.writerVertex, h.writer⟩
  | both =>
    rw [if_pos (hlastw.mpr rfl)]
    have hadd : addRead v [v + 1, v] .fragment = [v + 1, v] := by simp [addRead]
    rw [hadd]
    exact ⟨.both, h.exclusive, h.ring, h.flag, h.writerVertex, h.writer⟩

/-- The first write, at the pre-raster stage. Behind two entries of the encoder itself there is no
room for the oldest reader. -/
theorem RenderOpen.write_preRaster (hr : Record e L v) (h : RenderOpen e L v pr fr news s)
    (hlen : news.length ≤ 1) (ha : a.stage = .preRaster) (hf : a.flags.write = true) :
    ∃ waitVertex, RenderClosed v .preRaster waitVertex s.fenceWait (trackRender v s a) ∧
      WriterIn e v waitVertex ∧ ReadersIn L v waitVertex := by
  have he := hr.exclusive_lt
  have hw1 : ¬ s.tracker.exclusive = v + 1 := by rw [h.exclusive]; omega
  have hv1 : ¬ s.tracker.exclusive = v := by rw [h.exclusive]; omega
  have hring := ring_clear h.ring.cursor_lt
  refine ⟨waitLastExclusive s.tracker.exclusive (waitShared s.tracker.shared v s.fenceWaitVertex),
    ?_, h.exclusive ▸ writerIn_waitLastExclusive _, fun x hx hwin => waitLastExclusive_mono ?_⟩
  · simp only [trackRender, ha, hf, if_true, withFenceWaitVertex, accessExclusivePreRaster,
      if_neg hw1, if_neg hv1]
    split
    · exact ⟨rfl, hring, rfl, rfl⟩
    · exact ⟨rfl, hring, rfl, rfl⟩
  · exact readersIn_waitShared h.ring (h.entries.sorted hr) hr le_rfl (by omega) _ x hx hwin

/-- The first write, at the fragment stage. -/
theorem RenderOpen.write_fragment (hr : Record e L v) (h : RenderOpen e L v pr fr news s)
    (ha : a.stage = .fragment) (hf : a.flags.write = true) :
    ∃ wait, RenderClosed v .fragment s.fenceWaitVertex wait (trackRender v s a) ∧
      WriterIn e (v + 1) wait ∧ ReadersIn L (v + 1) wait := by
  have he := hr.exclusive_lt
  have hlen := h.entries.length_le
  have hw1 : ¬ s.tracker.exclusive = v + 1 := by rw [h.exclusive]; omega
  have hv1 : ¬ s.tracker.exclusive = v := by rw [h.exclusive]; omega
  have hring := ring_clear h.ring.cursor_lt
  refine ⟨waitLastExclusive s.tracker.exclusive (waitShared s.tracker.shared (v + 1) s.fenceWait),
    ?_, h.exclusive ▸ writerIn_waitLastExclusive _, fun x hx hwin => waitLastExclusive_mono ?_⟩
  · simp only [trackRender, ha, hf, if_true, withFenceWait, accessExclusiveFragment, if_neg hw1,
      Nat.add_sub_cancel, if_neg hv1]
    split
    · exact ⟨rfl, hring, rfl, rfl⟩
    · exact ⟨rfl, hring, rfl, rfl⟩
  · exact readersIn_waitShared h.ring (h.entries.sorted hr) hr (Nat.le_succ v) (by omega) _ x hx
      hwin

variable {stage : RenderStage} {waitVertex wait : FenceSet}

theorem RenderClosed.exclusive_preRaster (h : RenderClosed v .preRaster waitVertex wait s) :
    s.tracker.exclusive = v ∧ ¬ s.tracker.exclusive = v + 1 := by
  have hv : s.tracker.exclusive = v := h.exclusive
  exact ⟨hv, by omega⟩

/-- After the first write a read leaves everything as it is. -/
theorem RenderClosed.read (h : RenderClosed v stage waitVertex wait s)
    (hf : a.flags.write = false) : RenderClosed v stage waitVertex wait (trackRender v s a) := by
  cases stage with
  | preRaster =>
    obtain ⟨hv, hw⟩ := h.exclusive_preRaster
    cases ha : a.stage with
    | preRaster =>
      simp only [trackRender, ha, hf, Bool.false_eq_true, if_false, withFenceWaitVertex,
        accessSharedPreRaster, if_neg hw, if_pos hv]
      split <;> exact ⟨hv, h.ring, h.fenceWaitVertex, h.fenceWait⟩
    | fragment =>
      simp only [trackRender, ha, hf, Bool.false_eq_true, if_false, withFenceWait,
        accessSharedFragment, if_neg hw, Nat.add_sub_cancel, if_pos hv]
      split <;> exact ⟨hv, h.ring, h.fenceWaitVertex, h.fenceWait⟩
  | fragment =>
    have hw : s.tracker.exclusive = v + 1 := h.exclusive
    cases ha : a.stage with
    | preRaster =>
      simp only [trackRender, ha, hf, Bool.false_eq_true, if_false, withFenceWaitVertex,
        accessSharedPreRaster, if_pos hw]
      split <;> exact ⟨hw, h.ring, h.fenceWaitVertex, h.fenceWait⟩
    | fragment =>
      simp only [trackRender, ha, hf, Bool.false_eq_true, if_false, withFenceWait,
        accessSharedFragment, if_pos hw]
      split <;> exact ⟨hw, h.ring, h.fenceWaitVertex, h.fenceWait⟩

/-- After the first write a write moves `exclusive` to its own stage, backwards too. -/
theorem RenderClosed.write (h : RenderClosed v stage waitVertex wait s)
    (hf : a.flags.write = true) : RenderClosed v a.stage waitVertex wait (trackRender v s a) := by
  cases stage with
  | preRaster =>
    obtain ⟨hv, hw⟩ := h.exclusive_preRaster
    cases ha : a.stage with
    | preRaster =>
      simp only [trackRender, ha, hf, if_true, withFenceWaitVertex, accessExclusivePreRaster,
        if_neg hw, if_pos hv]
      exact ⟨rfl, h.ring, h.fenceWaitVertex, h.fenceWait⟩
    | fragment =>
      simp only [trackRender, ha, hf, if_true, withFenceWait, accessExclusiveFragment, if_neg hw,
        Nat.add_sub_cancel, if_pos hv]
      split <;> exact ⟨rfl, h.ring, h.fenceWaitVertex, h.fenceWait⟩
  | fragment =>
    have hw : s.tracker.exclusive = v + 1 := h.exclusive
    cases ha : a.stage with
    | preRaster =>
      simp only [trackRender, ha, hf, if_true, withFenceWaitVertex, accessExclusivePreRaster,
        if_pos hw]
      split <;> exact ⟨rfl, h.ring, h.fenceWaitVertex, h.fenceWait⟩
    | fragment =>
      simp only [trackRender, ha, hf, if_true, withFenceWait, accessExclusiveFragment, if_pos hw]
      split <;> exact ⟨rfl, h.ring, h.fenceWaitVertex, h.fenceWait⟩

theorem RenderClosed.run (as : List RenderAccess) :
    ∀ {stage : RenderStage} {s : TrackState}, RenderClosed v stage waitVertex wait s →
      RenderClosed v (lastWriteStage stage as) waitVertex wait (as.foldl (trackRender v) s) := by
  induction as with
  | nil => exact fun h => h
  | cons a as ih =>
    intro stage s h
    cases hf : a.flags.write with
    | true => simpa only [lastWriteStage, List.foldl_cons, hf, if_true] using ih (h.write hf)
    | false =>
      simpa only [lastWriteStage, List.foldl_cons, hf, Bool.false_eq_true, if_false]
        using ih (h.read hf)

/-- The entries of a list of reads. -/
def readEntries (v : Nat) (as : List RenderAccess) (news : List Nat) : List Nat :=
  as.foldl (fun news a => addRead v news a.stage) news

/-- There is an access at the stage. -/
def hasStage (stage : RenderStage) (as : List RenderAccess) : Bool :=
  as.any fun a => decide (a.stage = stage)

theorem hasStage_eq_true {as : List RenderAccess} :
    hasStage stage as = true ↔ ∃ a ∈ as, a.stage = stage := by
  simp [hasStage]

theorem RenderOpen.run (hr : Record e L v) : ∀ (as : List RenderAccess) {pr fr : Bool}
    {news : List Nat} {s : TrackState}, (∀ a ∈ as, a.flags.write = false) →
      RenderOpen e L v pr fr news s →
      RenderOpen e L v (pr || hasStage .preRaster as) (fr || hasStage .fragment as)
        (readEntries v as news) (as.foldl (trackRender v) s)
  | [], pr, fr, news, s, _, h => by simpa [hasStage, readEntries] using h
  | a :: as, pr, fr, news, s, hreads, h => by
    have hf := hreads a (List.mem_cons_self ..)
    have hreads' : ∀ b ∈ as, b.flags.write = false := fun b hb =>
      hreads b (List.mem_cons_of_mem a hb)
    cases ha : a.stage with
    | preRaster =>
      have hnext := RenderOpen.run hr as hreads' (h.read_preRaster hr ha hf)
      simpa [hasStage, readEntries, ha] using hnext
    | fragment =>
      have hnext := RenderOpen.run hr as hreads' (h.read_fragment hr ha hf)
      simpa [hasStage, readEntries, ha] using hnext

/-! ## A whole encoder

`R` is any order that has the edges of the encoder. -/

/-- The access is ordered after the last writer and, if it writes, after the readers. -/
structure Covered (R : Nat → Nat → Prop) (e : Nat) (L : List Nat) (a : Access) : Prop where
  writer : e ≠ 0 → a.id < e + 64 → R e a.id
  readers : a.write = true → ∀ x ∈ L, a.id < x + 64 → R x a.id

/-- What an encoder leaves in the tracker, for the accesses `acc`. It only read: its reads are in
the ring, the pre-raster ones maybe through the fragment id. Or it wrote: it is the last writer,
under an id that everything in it is ordered before. -/
inductive Leaves (R : Nat → Nat → Prop) (e : Nat) (L : List Nat) (first last : Nat)
    (acc : List Access) (t : GenericAccessTracker) : Prop
  | reads (news : List Nat) (exclusive : t.exclusive = e) (ring : Ring t.shared (news ++ L))
      (sorted : (news ++ L).Pairwise (· > ·)) (le : ∀ x ∈ news, x ≤ last)
      (reads : ∀ a ∈ acc, a.write = false ∧
        (a.id ∈ news ∨ (a.id + 1 ∈ news ∧ R a.id (a.id + 1))))
  | writes (ring : Ring t.shared []) (ge : first ≤ t.exclusive) (le : t.exclusive ≤ last)
      (write : ∃ a ∈ acc, a.write = true ∧ a.id = t.exclusive)
      (before : ∀ a ∈ acc, a.id ≤ t.exclusive ∧ (a.id = t.exclusive ∨ R a.id t.exclusive))

theorem waitsOn_of_writerIn {wait : FenceSet} (h : WriterIn e id wait) (he : e < id) (h0 : e ≠ 0)
    (hwin : id < e + 64) : WaitsOn wait e id :=
  ⟨h h0 hwin, he, by rw [kParityLane_eq]; omega⟩

theorem waitsOn_of_readersIn {wait : FenceSet} (h : ReadersIn L id wait) {x : Nat} (hx : x ∈ L)
    (hlt : x < id) (hwin : id < x + 64) : WaitsOn wait x id :=
  ⟨h x hx hwin, hlt, by rw [kParityLane_eq]; omega⟩

theorem compute_spec {R : Nat → Nat → Prop} {t : GenericAccessTracker}
    (hr : Record t.exclusive L id) (hring : Ring t.shared L) (as : List ResourceAccess)
    (hR : ∀ x y, (TrackedEncoder.compute id as).Edge ((TrackedEncoder.compute id as).track t) x
    y → R x y) :
    (∀ a ∈ (TrackedEncoder.compute id as).accesses, Covered R t.exclusive L a) ∧
      Leaves R t.exclusive L id id (TrackedEncoder.compute id as).accesses
        ((TrackedEncoder.compute id as).track t).tracker := by
  have hopen : ComputeOpen t.exclusive L id false (start t) :=
    ⟨rfl, hring, fun h => absurd h (by decide)⟩
  have hrun := hopen.run hr as
  have hmem : ∀ a ∈ (TrackedEncoder.compute id as).accesses, a.id = id ∧ ∃ b ∈ as,
      b.write = a.write := by
    intro a ha
    obtain ⟨b, hb, rfl⟩ := List.mem_map.mp ha
    exact ⟨rfl, b, hb, rfl⟩
  by_cases hw : ∃ a ∈ as, a.write = true
  · rw [if_pos hw] at hrun
    refine ⟨fun a ha => ?_, .writes hrun.ring hrun.exclusive.ge hrun.exclusive.le ?_ fun a ha => ?_⟩
    · obtain ⟨hid, -⟩ := hmem a ha
      refine ⟨fun h0 hwin => ?_, fun _ x hx hwin => ?_⟩ <;> rw [hid] at hwin ⊢
      · exact hR _ _ ⟨rfl, waitsOn_of_writerIn hrun.writer hr.exclusive_lt h0 hwin⟩
      · exact hR _ _ ⟨rfl, waitsOn_of_readersIn hrun.readers hx (hr.lt x hx) hwin⟩
    · obtain ⟨b, hb, hbw⟩ := hw
      exact ⟨⟨id, b.write⟩, List.mem_map.mpr ⟨b, hb, rfl⟩, hbw, hrun.exclusive.symm⟩
    · have heq := (hmem a ha).1.trans hrun.exclusive.symm
      exact ⟨heq.le, Or.inl heq⟩
  · rw [if_neg hw] at hrun
    have hread : ∀ a ∈ (TrackedEncoder.compute id as).accesses, a.write = false := by
      intro a ha
      obtain ⟨-, b, hb, hbw⟩ := hmem a ha
      rw [← hbw]
      exact Bool.eq_false_iff.mpr fun h => hw ⟨b, hb, h⟩
    cases as with
    | nil =>
      exact ⟨fun a ha => absurd ha List.not_mem_nil, .reads [] rfl hrun.ring hr.sorted
        (fun x hx => absurd hx List.not_mem_nil) fun a ha => absurd ha List.not_mem_nil⟩
    | cons b as =>
      refine ⟨fun a ha => ?_, .reads [id] hrun.exclusive hrun.ring hr.sorted_cons (fun x hx => ?_)
        fun a ha => ?_⟩
      · obtain ⟨hid, -⟩ := hmem a ha
        refine ⟨fun h0 hwin => ?_, fun h => ?_⟩
        · rw [hid] at hwin ⊢
          exact hR _ _ ⟨rfl, waitsOn_of_writerIn (hrun.writer rfl) hr.exclusive_lt h0 hwin⟩
        · exact absurd (hread a ha) (by rw [h]; decide)
      · exact (List.mem_singleton.mp hx).le
      · exact ⟨hread a ha, Or.inl (by rw [(hmem a ha).1]; exact List.mem_singleton.mpr rfl)⟩

/-- A list of reads that starts at the fragment stage, or stays at the pre-raster stage, takes at
most one entry. -/
theorem readEntries_length_le (v : Nat) {as : List RenderAccess}
    (h : (∃ r ∈ as.head?, r.stage = .fragment) ∨ ∀ r ∈ as, r.stage = .preRaster) :
    (readEntries v as []).length ≤ 1 := by
  have hfrag : ∀ as : List RenderAccess, readEntries v as [v + 1] = [v + 1] := by
    intro as
    induction as with
    | nil => rfl
    | cons a as ih =>
      have hadd : addRead v [v + 1] a.stage = [v + 1] := by cases a.stage <;> simp [addRead]
      rw [readEntries, List.foldl_cons, hadd]
      exact ih
  have hpre : ∀ as : List RenderAccess, (∀ r ∈ as, r.stage = .preRaster) →
      readEntries v as [v] = [v] := by
    intro as
    induction as with
    | nil => exact fun _ => rfl
    | cons a as ih =>
      intro ha
      have hadd : addRead v [v] a.stage = [v] := by
        rw [ha a (List.mem_cons_self ..)]
        simp [addRead]
      rw [readEntries, List.foldl_cons, hadd]
      exact ih fun r hr => ha r (List.mem_cons_of_mem a hr)
  cases as with
  | nil => exact Nat.zero_le 1
  | cons a as =>
    rcases h with ⟨r, hr, ha⟩ | ha
    · obtain rfl : a = r := by simpa using hr
      have hadd : addRead v [] a.stage = [v + 1] := by rw [ha]; simp [addRead]
      rw [readEntries, List.foldl_cons, hadd]
      exact (congrArg List.length (hfrag as)).le
    · have hadd : addRead v [] a.stage = [v] := by
        rw [ha a (List.mem_cons_self ..)]
        rfl
      rw [readEntries, List.foldl_cons, hadd]
      exact (congrArg List.length (hpre as fun r hr => ha r (List.mem_cons_of_mem a hr))).le

/-- An access id is the id of the access' stage. -/
theorem mem_render_accesses {as : List RenderAccess} {x : Access} :
    x ∈ (TrackedEncoder.render v as).accesses ↔
      ∃ a ∈ as, x.id = a.stage.id v ∧ x.write = a.flags.write := by
  constructor
  · intro hx
    obtain ⟨a, ha, rfl⟩ := List.mem_map.mp hx
    exact ⟨a, ha, rfl, rfl⟩
  · rintro ⟨a, ha, hid, hw⟩
    refine List.mem_map.mpr ⟨a, ha, ?_⟩
    rw [← hid, ← hw]

/-- The last write is one of the writes. -/
theorem exists_lastWrite {w : RenderAccess} (hw : w.flags.write = true) :
    ∀ later : List RenderAccess, ∃ a ∈ w :: later, a.flags.write = true ∧
      a.stage = lastWriteStage w.stage later
  | [] => ⟨w, List.mem_cons_self .., hw, rfl⟩
  | b :: later => by
    cases hb : b.flags.write with
    | true =>
      obtain ⟨a, ha, haw, hst⟩ := exists_lastWrite hb later
      refine ⟨a, List.mem_cons_of_mem w ha, haw, hst.trans ?_⟩
      simp only [lastWriteStage, List.foldl_cons, hb, if_true]
    | false =>
      obtain ⟨a, ha, haw, hst⟩ := exists_lastWrite hw later
      refine ⟨a, ?_, haw, hst.trans ?_⟩
      · rcases List.mem_cons.mp ha with rfl | ha
        · exact List.mem_cons_self ..
        · exact List.mem_cons_of_mem w (List.mem_cons_of_mem b ha)
      · simp only [lastWriteStage, List.foldl_cons, hb, Bool.false_eq_true, if_false]

/-- A list of accesses is its reads before the first write, and the rest. -/
theorem split_at_firstWrite {as : List RenderAccess} {w : RenderAccess} {later : List RenderAccess}
    (h : as.dropWhile (fun a => !a.flags.write) = w :: later) :
    as = as.takeWhile (fun a => !a.flags.write) ++ w :: later ∧ w.flags.write = true := by
  refine ⟨by rw [← h, List.takeWhile_append_dropWhile], ?_⟩
  have := List.head?_dropWhile_not (fun a : RenderAccess => !a.flags.write) as
  rw [h] at this
  simpa using this

theorem reads_of_takeWhile (as : List RenderAccess) :
    ∀ a ∈ as.takeWhile (fun a => !a.flags.write), a.flags.write = false := by
  intro a ha
  have := List.all_eq_true.mp List.all_takeWhile a ha
  simpa using this

section Render

variable {R : Nat → Nat → Prop} {t : GenericAccessTracker} {as : List RenderAccess}

theorem RenderOpen.start (hring : Ring t.shared L) :
    RenderOpen t.exclusive L v false false [] (start t) :=
  ⟨.none, rfl, hring, fun h => absurd rfl h, fun h => absurd h (by decide),
    fun h => absurd h (by decide)⟩

/-- Reads only. -/
theorem render_spec_reads (hr : Record t.exclusive L v) (hring : Ring t.shared L)
    (hR : ∀ x y, (TrackedEncoder.render v as).Edge ((TrackedEncoder.render v as).track t) x y →
      R x y)
    (hreads : ∀ a ∈ as, a.flags.write = false) :
    (∀ a ∈ (TrackedEncoder.render v as).accesses, Covered R t.exclusive L a) ∧
      Leaves R t.exclusive L v (v + 1) (TrackedEncoder.render v as).accesses
        ((TrackedEncoder.render v as).track t).tracker := by
  have hstep : R v (v + 1) := hR _ _ (Or.inr (Or.inr ⟨rfl, rfl⟩))
  have hrun := (RenderOpen.start hring).run hr as hreads
  rw [Bool.false_or, Bool.false_or] at hrun
  have hhas : ∀ a ∈ as, hasStage a.stage as = true := fun a ha => hasStage_eq_true.mpr ⟨a, ha, rfl⟩
  refine ⟨fun x hx => ?_, .reads _ hrun.exclusive hrun.ring (hrun.entries.sorted hr) ?_
    fun x hx => ?_⟩
  · obtain ⟨a, ha, hid, hw⟩ := mem_render_accesses.mp hx
    have hwin := hhas a ha
    refine ⟨fun h0 hlt => ?_, fun h => absurd (hw ▸ h) (by rw [hreads a ha]; decide)⟩
    have he := hr.exclusive_lt
    rw [hid] at hlt ⊢
    cases hst : a.stage <;> rw [hst] at hlt hwin
    · exact hR _ _ (Or.inl ⟨rfl, waitsOn_of_writerIn (hrun.writerVertex hwin) he h0 hlt⟩)
    · exact hR _ _ (Or.inr (Or.inl
        ⟨rfl, waitsOn_of_writerIn (hrun.writer hwin) (Nat.lt_succ_of_lt he) h0 hlt⟩))
  · exact hrun.entries.le
  · obtain ⟨a, ha, hid, hw⟩ := mem_render_accesses.mp hx
    have hmem := hhas a ha
    refine ⟨hw.trans (hreads a ha), ?_⟩
    rw [hid]
    cases hst : a.stage <;> rw [hst] at hmem
    · rcases (hmem ▸ hrun.entries).mem_preRaster with h | h
      · exact Or.inl h
      · exact Or.inr ⟨h, hstep⟩
    · exact Or.inl (hmem ▸ hrun.entries).mem_fragment

/-- The encoder up to its first write `w`, and from there on. -/
theorem track_split {w : RenderAccess} {earlier later : List RenderAccess}
    (has : as = earlier ++ w :: later) :
    (TrackedEncoder.render v as).track t =
      later.foldl (trackRender v) (trackRender v (earlier.foldl (trackRender v) (start t)) w) := by
  rw [has]
  exact List.foldl_append

/-- An encoder that waits as it should and ends as the last writer under `stage`. -/
theorem render_spec_writes {w : RenderAccess} {earlier later : List RenderAccess}
    (has : as = earlier ++ w :: later) (hw : w.flags.write = true) {s : TrackState}
    (hclosed : RenderClosed v (lastWriteStage w.stage later) waitVertex wait s)
    (hstep : R v (v + 1)) (hcov : ∀ a ∈ as, Covered R t.exclusive L ⟨a.stage.id v, a.flags.write⟩)
    (hlast : ∀ a ∈ as, lastWriteStage w.stage later = .preRaster → a.stage = .preRaster) :
    (∀ a ∈ (TrackedEncoder.render v as).accesses, Covered R t.exclusive L a) ∧
      Leaves R t.exclusive L v (v + 1) (TrackedEncoder.render v as).accesses s.tracker := by
  obtain ⟨a, ha, haw, hst⟩ := exists_lastWrite hw later
  have hmem : a ∈ as := by
    rw [has]
    exact List.mem_append_right _ ha
  refine ⟨fun x hx => ?_, .writes hclosed.ring ?_ ?_ ?_ fun x hx => ?_⟩
  · obtain ⟨b, hb, hid, hbw⟩ := mem_render_accesses.mp hx
    have := hcov b hb
    rw [← hid, ← hbw] at this
    exact this
  · rw [hclosed.exclusive]
    cases lastWriteStage w.stage later <;> simp [RenderStage.id]
  · rw [hclosed.exclusive]
    cases lastWriteStage w.stage later <;> simp [RenderStage.id]
  · exact ⟨⟨a.stage.id v, a.flags.write⟩, mem_render_accesses.mpr ⟨a, hmem, rfl, rfl⟩, haw,
      by rw [hclosed.exclusive, hst]⟩
  · obtain ⟨b, hb, hid, -⟩ := mem_render_accesses.mp hx
    rw [hclosed.exclusive, hid]
    cases hs : lastWriteStage w.stage later with
    | preRaster =>
      rw [hlast b hb hs]
      exact ⟨le_rfl, Or.inl rfl⟩
    | fragment =>
      cases b.stage
      · exact ⟨Nat.le_succ v, Or.inr hstep⟩
      · exact ⟨le_rfl, Or.inl rfl⟩

/-- The first write is at the fragment stage, and nothing at the pre-raster stage after it is new.
-/
theorem render_spec_fragment (hr : Record t.exclusive L v) (hring : Ring t.shared L)
    (hR : ∀ x y, (TrackedEncoder.render v as).Edge ((TrackedEncoder.render v as).track t) x y →
      R x y)
    {w : RenderAccess} {earlier later : List RenderAccess} (has : as = earlier ++ w :: later)
    (hreads : ∀ a ∈ earlier, a.flags.write = false) (hw : w.flags.write = true)
    (hst : w.stage = .fragment)
    (hsafe : ∀ a ∈ later, a.stage = .preRaster →
      a.flags.write = false ∧ ∃ r ∈ earlier, r.stage = .preRaster) :
    (∀ a ∈ (TrackedEncoder.render v as).accesses, Covered R t.exclusive L a) ∧
      Leaves R t.exclusive L v (v + 1) (TrackedEncoder.render v as).accesses
        ((TrackedEncoder.render v as).track t).tracker := by
  have he := hr.exclusive_lt
  have hrun := (RenderOpen.start hring).run hr earlier hreads
  obtain ⟨wait, hclosed, hwriter, hreaders⟩ := hrun.write_fragment hr hst hw
  have hfinal := RenderClosed.run later hclosed
  rw [← track_split has] at hfinal
  have hvertex : ∀ a ∈ as, a.stage = .preRaster →
      a.flags.write = false ∧ ∃ r ∈ earlier, r.stage = .preRaster := by
    intro a ha hpre
    rw [has] at ha
    rcases List.mem_append.mp ha with ha | ha
    · exact ⟨hreads a ha, a, ha, hpre⟩
    · rcases List.mem_cons.mp ha with rfl | ha
      · exact absurd (hst.symm.trans hpre) (by decide)
      · exact hsafe a ha hpre
  have hlast : lastWriteStage .fragment later ≠ .preRaster := by
    intro hl
    obtain ⟨a, ha, haw, hat⟩ := exists_lastWrite hw later
    rw [hst] at hat
    have := (hvertex a (has ▸ List.mem_append_right _ ha) (hat.trans hl)).1
    exact absurd (haw.symm.trans this) (by decide)
  refine render_spec_writes has hw (hst ▸ hfinal) (hR _ _ (Or.inr (Or.inr ⟨rfl, rfl⟩)))
    (fun a ha => ?_) fun a _ h => absurd (hst ▸ h) hlast
  cases hat : a.stage with
  | preRaster =>
    obtain ⟨hread, hex⟩ := hvertex a ha hat
    refine ⟨fun h0 hwin => hR _ _ (Or.inl ⟨rfl, ?_⟩), fun h => ?_⟩
    · rw [hfinal.fenceWaitVertex]
      exact waitsOn_of_writerIn (hrun.writerVertex (hasStage_eq_true.mpr hex)) he h0 hwin
    · exact absurd (h.symm.trans hread) (by decide)
  | fragment =>
    refine ⟨fun h0 hwin => hR _ _ (Or.inr (Or.inl ⟨rfl, ?_⟩)),
      fun _ x hx hwin => hR _ _ (Or.inr (Or.inl ⟨rfl, ?_⟩))⟩
    · rw [hfinal.fenceWait]
      exact waitsOn_of_writerIn hwriter (Nat.lt_succ_of_lt he) h0 hwin
    · rw [hfinal.fenceWait]
      exact waitsOn_of_readersIn hreaders hx (Nat.lt_succ_of_lt (hr.lt x hx)) hwin

/-- The first write is at the pre-raster stage: the fragment stage is ordered through it. -/
theorem render_spec_preRaster (hr : Record t.exclusive L v) (hring : Ring t.shared L)
    (htrans : ∀ x y z, R x y → R y z → R x z)
    (hR : ∀ x y, (TrackedEncoder.render v as).Edge ((TrackedEncoder.render v as).track t) x y →
    R x y)
    {w : RenderAccess} {earlier later : List RenderAccess} (has : as = earlier ++ w :: later)
    (hreads : ∀ a ∈ earlier, a.flags.write = false) (hw : w.flags.write = true)
    (hst : w.stage = .preRaster)
    (hlast : lastWriteStage .preRaster later = .fragment ∨ ∀ a ∈ as, a.stage = .preRaster)
    (hroom : (∃ r ∈ earlier.head?, r.stage = .fragment) ∨ ∀ r ∈ earlier, r.stage = .preRaster) :
    (∀ a ∈ (TrackedEncoder.render v as).accesses, Covered R t.exclusive L a) ∧
      Leaves R t.exclusive L v (v + 1) (TrackedEncoder.render v as).accesses
        ((TrackedEncoder.render v as).track t).tracker := by
  have hstep : R v (v + 1) := hR _ _ (Or.inr (Or.inr ⟨rfl, rfl⟩))
  have hrun := (RenderOpen.start hring).run hr earlier hreads
  obtain ⟨waitVertex, hclosed, hwriter, hreaders⟩ :=
    hrun.write_preRaster hr (readEntries_length_le v hroom) hst hw
  have hfinal := RenderClosed.run later hclosed
  rw [← track_split has] at hfinal
  rw [← hfinal.fenceWaitVertex] at hwriter hreaders
  have hvertex : Covered R t.exclusive L ⟨v, true⟩ :=
    ⟨fun h0 hwin => hR _ _ (Or.inl ⟨rfl, waitsOn_of_writerIn hwriter hr.exclusive_lt h0 hwin⟩),
      fun _ x hx hwin => hR _ _ (Or.inl ⟨rfl, waitsOn_of_readersIn hreaders hx (hr.lt x hx) hwin⟩)⟩
  refine render_spec_writes has hw (hst ▸ hfinal) hstep (fun a _ => ?_) fun a ha h => ?_
  · cases a.stage with
    | preRaster => exact ⟨hvertex.writer, fun _ => hvertex.readers rfl⟩
    | fragment =>
      exact ⟨fun h0 hwin => htrans _ _ _ (hvertex.writer h0 (Nat.lt_of_succ_lt hwin)) hstep,
        fun _ x hx hwin => htrans _ _ _ (hvertex.readers rfl x hx (Nat.lt_of_succ_lt hwin)) hstep⟩
  · rcases hlast with hl | hall
    · rw [hst, hl] at h
      exact absurd h (by decide)
    · exact hall a ha

/-- **One render encoder**, with a safe pattern of accesses. -/
theorem render_spec (hr : Record t.exclusive L v) (hring : Ring t.shared L) (hsafe : RenderSafe as)
    (htrans : ∀ x y z, R x y → R y z → R x z)
    (hR : ∀ x y, (TrackedEncoder.render v as).Edge ((TrackedEncoder.render v as).track t) x y →
    R x y) :
    (∀ a ∈ (TrackedEncoder.render v as).accesses, Covered R t.exclusive L a) ∧
      Leaves R t.exclusive L v (v + 1) (TrackedEncoder.render v as).accesses
        ((TrackedEncoder.render v as).track t).tracker := by
  have hreads := reads_of_takeWhile as
  unfold RenderSafe at hsafe
  cases hdrop : as.dropWhile (fun a => !a.flags.write) with
  | nil =>
    refine render_spec_reads hr hring hR fun a ha => hreads a ?_
    have has :=
      List.takeWhile_append_dropWhile (p := fun a : RenderAccess => !a.flags.write) (l := as)
    rw [hdrop, List.append_nil] at has
    exact has.symm ▸ ha
  | cons w later =>
    obtain ⟨has, hw⟩ := split_at_firstWrite hdrop
    simp only [hdrop] at hsafe
    cases hst : w.stage with
    | fragment =>
      rw [hst] at hsafe
      exact render_spec_fragment hr hring hR has hreads hw hst hsafe
    | preRaster =>
      rw [hst] at hsafe
      exact render_spec_preRaster hr hring htrans hR has hreads hw hst hsafe.1 hsafe.2

end Render

/-! ## The run -/

/-- The record over the accesses `done` of the earlier encoders, all at ids below `base`: each is
ordered before the last writer, or is a read in the ring since. -/
structure History (R : Nat → Nat → Prop) (done : List Access) (base : Nat)
    (t : GenericAccessTracker) (L : List Nat) : Prop where
  ring : Ring t.shared L
  record : Record t.exclusive L base
  start : ∀ b ∈ done, 256 ≤ b.id
  known : ∀ b ∈ done,
    (b.id ≤ t.exclusive ∧ (t.exclusive < b.id + 64 → b.id = t.exclusive ∨ R b.id t.exclusive)) ∨
    (b.write = false ∧ (b.id ∈ L ∨ (b.id + 1 ∈ L ∧ R b.id (b.id + 1))))

section Run

variable {R : Nat → Nat → Prop} {t : GenericAccessTracker} {done acc : List Access} {base : Nat}

theorem History.lt (h : History R done base t L) {b : Access} (hb : b ∈ done) : b.id < base := by
  have hex := h.record.exclusive_lt
  rcases h.known b hb with ⟨hle, -⟩ | ⟨-, hmem | ⟨hmem, -⟩⟩
  · omega
  · exact h.record.lt _ hmem
  · have := h.record.lt _ hmem
    omega

/-- A covered access is ordered after every conflicting access of the history. -/
theorem History.before (h : History R done base t L) (htrans : ∀ x y z, R x y → R y z → R x z)
    {a b : Access} (ha : Covered R t.exclusive L a) (hlt : base ≤ a.id) (hb : b ∈ done)
    (hc : Conflict b a) : R b.id a.id := by
  obtain ⟨hwrite, hwin⟩ := hc
  rw [kLane_eq] at hwin
  have hex := h.record.exclusive_lt
  have hstart := h.start b hb
  rcases h.known b hb with ⟨hle, hord⟩ | ⟨hread, hmem⟩
  · have hea := ha.writer (by omega) (by omega)
    rcases hord (by omega) with heq | hbe
    · rw [heq]
      exact hea
    · exact htrans _ _ _ hbe hea
  · have haw : a.write = true := hwrite.resolve_left (by rw [hread]; decide)
    rcases hmem with hmem | ⟨hmem, hstep⟩
    · exact ha.readers haw _ hmem hwin
    · exact htrans _ _ _ hstep (ha.readers haw _ hmem (by omega))

/-- **The history over one encoder.** -/
theorem History.next (h : History R done base t L) (htrans : ∀ x y z, R x y → R y z → R x z)
    {first last next : Nat} {t' : GenericAccessTracker} (hfirst : base ≤ first)
    (hcov : ∀ a ∈ acc, Covered R t.exclusive L a) (hids : ∀ a ∈ acc, first ≤ a.id)
    (hleaves : Leaves R t.exclusive L first last acc t') (hnext : last < next)
    (hfl : first ≤ last) : ∃ L', History R (acc ++ done) next t' L' := by
  have hex := h.record.exclusive_lt
  have hbase := h.record.base_ge
  have hstart : ∀ b ∈ acc ++ done, 256 ≤ b.id := by
    intro b hb
    rcases List.mem_append.mp hb with hb | hb
    · have := hids b hb
      omega
    · exact h.start b hb
  cases hleaves with
  | reads news exclusive ring sorted le reads =>
    refine ⟨news ++ L, ring, ⟨sorted, fun x hx => ?_, by omega, by omega⟩, hstart, fun b hb => ?_⟩
    · rcases List.mem_append.mp hx with hx | hx
      · exact Nat.lt_of_le_of_lt (le x hx) hnext
      · have := h.record.lt x hx
        omega
    · rw [exclusive]
      rcases List.mem_append.mp hb with hb | hb
      · obtain ⟨hread, hmem⟩ := reads b hb
        refine Or.inr ⟨hread, ?_⟩
        exact hmem.imp (List.mem_append_left L) fun h => ⟨List.mem_append_left L h.1, h.2⟩
      · refine (h.known b hb).imp_right fun ⟨hread, hmem⟩ => ⟨hread, ?_⟩
        exact hmem.imp (List.mem_append_right news) fun h => ⟨List.mem_append_right news h.1, h.2⟩
  | writes ring ge le write before =>
    obtain ⟨w, hw, hww, hwid⟩ := write
    refine ⟨[], ring, ⟨List.Pairwise.nil, fun x hx => absurd hx List.not_mem_nil, by omega,
      by omega⟩, hstart, fun b hb => Or.inl ?_⟩
    rcases List.mem_append.mp hb with hb | hb
    · exact ⟨(before b hb).1, fun _ => (before b hb).2⟩
    · have := h.lt hb
      refine ⟨by omega, fun hwin => Or.inr ?_⟩
      have hconf : Conflict b w := ⟨Or.inr hww, by rw [hwid, kLane_eq]; exact hwin⟩
      exact hwid ▸ h.before htrans (hcov w hw) (by omega) hb hconf

/-- One encoder, by kind: the ids, the coverage and what it leaves. -/
theorem TrackedEncoder.spec (e : TrackedEncoder) (hsafe : e.Safe)
    (hr : Record t.exclusive L e.first) (hring : Ring t.shared L)
    (htrans : ∀ x y z, R x y → R y z → R x z) (hR : ∀ x y, e.Edge (e.track t) x y → R x y) :
    (∀ a ∈ e.accesses, Covered R t.exclusive L a) ∧
      Leaves R t.exclusive L e.first e.last e.accesses (e.track t).tracker := by
  cases e with
  | compute id as => exact compute_spec hr hring as hR
  | render v as => exact render_spec hr hring hsafe htrans hR

theorem TrackedEncoder.first_le (e : TrackedEncoder) :
    e.first ≤ e.last ∧ ∀ a ∈ e.accesses, e.first ≤ a.id := by
  cases e with
  | compute id as =>
    refine ⟨le_rfl, fun a ha => ?_⟩
    obtain ⟨b, -, rfl⟩ := List.mem_map.mp ha
    exact le_rfl
  | render v as =>
    refine ⟨Nat.le_succ v, fun a ha => ?_⟩
    obtain ⟨b, -, rfl⟩ := List.mem_map.mp ha
    cases b.stage <;> simp [first, RenderStage.id]

/-- The record stays valid until the next encoder begins. -/
theorem History.mono (h : History R done base t L) {base' : Nat} (hb : base ≤ base') :
    History R done base' t L :=
  ⟨h.ring, ⟨h.record.sorted, fun x hx => Nat.lt_of_lt_of_le (h.record.lt x hx) hb,
    Nat.lt_of_lt_of_le h.record.exclusive_lt hb, h.record.base_ge.trans hb⟩, h.start, h.known⟩

/-- The run from a tracker with a history: every access is ordered after the conflicting ones of
the history and of the earlier encoders of the run. -/
theorem run_covered (htrans : ∀ x y z, R x y → R y z → R x z) :
    ∀ (es : List TrackedEncoder) {t : GenericAccessTracker} {done : List Access} {base : Nat}
      {L : List Nat},
      History R done base t L → (∀ e ∈ es, e.Safe) → (∀ e ∈ es, base ≤ e.first) →
      es.Pairwise (fun e f => e.last < f.first) →
      (∀ p ∈ runEncoders t es, ∀ x y, p.1.Edge p.2 x y → R x y) →
      (∀ p ∈ runEncoders t es, ∀ b ∈ done, ∀ a ∈ p.1.accesses, Conflict b a → R b.id a.id) ∧
        (runEncoders t es).Pairwise fun p q => ∀ b ∈ p.1.accesses, ∀ a ∈ q.1.accesses,
          Conflict b a → R b.id a.id
  | [], _, _, _, _, _, _, _, _, _ => ⟨fun p hp => absurd hp List.not_mem_nil, List.Pairwise.nil⟩
  | e :: es, t, done, base, L, h, hsafe, hbase, hord, hR => by
    have hfirst := hbase e (List.mem_cons_self ..)
    obtain ⟨hfl, hids⟩ := e.first_le
    obtain ⟨hafter, hord'⟩ := List.pairwise_cons.mp hord
    obtain ⟨hcov, hleaves⟩ := e.spec (hsafe e (List.mem_cons_self ..)) (h.mono hfirst).record h.ring
      htrans (hR _ (List.mem_cons_self ..))
    obtain ⟨L', hnext⟩ := h.next htrans hfirst hcov hids hleaves (Nat.lt_succ_self e.last) hfl
    obtain ⟨hdone, hpair⟩ := run_covered htrans es hnext
      (fun f hf => hsafe f (List.mem_cons_of_mem e hf)) (fun f hf => hafter f hf) hord'
      (fun p hp => hR p (List.mem_cons_of_mem _ hp))
    refine ⟨fun p hp b hb a ha hc => ?_, List.pairwise_cons.mpr ⟨fun p hp b hb a ha hc => ?_,
        hpair⟩⟩
    · rcases List.mem_cons.mp hp with rfl | hp
      · exact h.before htrans (hcov a ha) (hfirst.trans (hids a ha)) hb hc
      · exact hdone p hp b (List.mem_append_right _ hb) a ha hc
    · exact hdone p hp b (List.mem_append_left _ hb) a ha hc

end Run

/-- **Conflicting accesses are ordered** in every run whose render encoders keep to the safe
patterns. -/
theorem hazards_covered (garbage : Nat → Nat) (es : List TrackedEncoder) (hin : IssuedInOrder es)
    (hsafe : ∀ e ∈ es, e.Safe) : HazardsCovered (runEncoders (.init garbage) es) := by
  have hinit : History (Before (runEncoders (.init garbage) es)) [] 256 (.init garbage) [] :=
    ⟨ring_init garbage, ⟨List.Pairwise.nil, fun x hx => absurd hx List.not_mem_nil,
      Nat.zero_lt_succ 255, le_rfl⟩, fun b hb => absurd hb List.not_mem_nil,
      fun b hb => absurd hb List.not_mem_nil⟩
  exact (run_covered (fun _ _ _ => Relation.TransGen.trans) es hinit hsafe hin.start hin.order
    fun p hp x y he => Relation.TransGen.single ⟨p, hp, he⟩).2

/-- A fragment read and a compute write behind a pre-raster write. -/
theorem hazards_covered_three : HazardsCovered (runEncoders (.init fun _ => 0)
    [.render 256 [⟨.preRaster, ⟨true, true⟩⟩], .render 258 [⟨.fragment, ⟨false, false⟩⟩],
      .compute 260 [⟨true, true⟩]]) := by
  refine hazards_covered _ _ ⟨by decide, by decide⟩ fun e he => ?_
  simp only [List.mem_cons, List.not_mem_nil, or_false] at he
  rcases he with rfl | rfl | rfl
  · exact ⟨Or.inr (by decide), Or.inr (by decide)⟩
  · exact trivial
  · exact trivial

end Dxmt
