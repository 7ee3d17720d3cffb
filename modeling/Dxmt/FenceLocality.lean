import Dxmt.FenceSet

/-!
# Wait simplification: `FenceLocalityCheck`

`collectAndSimplifyWaits` gets the fences an encoder has to wait on (`strong_fences`), adds one
fence of the previous generation for every lane the strong ones leave free (the weak mask), and
walks back over the last 255 encoders. A fence is dropped from the result as soon as it is
accessible, that is, already ordered before the encoder through the stored summaries of the encoders
it does wait on.

Everything is keyed by slot. `Full` bits of an encoder name ids at most 127 back, so a merge at
offset `o` can only alias an id at offset below `o - 128`, which the walk has passed; that is the
arithmetic behind `loop_sound`.

Results: `fullFences_window` and `weak_mem_fullFences` say what the stored summaries hold,
`loop_sound` is the walk (a dropped fence is ordered by something), `full_before` is the induction
over the run, and `waits_keep_order` is the statement about a whole sequence of calls.

Source: `FenceLocalityCheck`, `dxmt_deptrack.cpp:240-290`.
-/

namespace Dxmt

/-- `WEAK_FENCE_MASK[id]`: entry `i` of the table is `fillGenerationBefore(i / kLane, i % kLane)`.
-/
def weakFenceMask (id : Nat) : FenceSet :=
  FenceSet.empty.fillGenerationBefore (id % kParityLane / kLane) (id % kParityLane % kLane)

/-- `FenceLocalityCheck`: the full fences of the last encoder of every slot. -/
structure FenceLocalityCheck where
  summary : Nat → FenceSet

namespace FenceLocalityCheck

/-- `FenceLocalityCheck()`: every summary is an empty `FenceSet`. -/
def init : FenceLocalityCheck := ⟨fun _ => ∅⟩

/-- `strong_fences` after the implicit pre-raster wait. -/
def strongFences (strong : FenceSet) (id : Nat) (implicitPreRaster : Bool) : FenceSet :=
  if implicitPreRaster then strong.set (id - 1) else strong

/-- `full_fences`. -/
def fullFences (strong : FenceSet) (id : Nat) : FenceSet :=
  strong.mergeWithLaneMaskOff (weakFenceMask id) strong.laneMask

/-- The body of the `for` loop at `prev = prev_encoder_id`, up to the `break`: the new
`minimal_fences` and `accessible_fences`. -/
def visit (summary : Nat → FenceSet) (full : FenceSet) (prev : Nat)
    (minimal accessible : FenceSet) : FenceSet × FenceSet :=
  let (minimal, accessible) :=
    if full.test prev then
      let (old, accessible) := accessible.testAndSet prev
      (if old then minimal else minimal.set prev, accessible)
    else (minimal, accessible)
  (minimal,
    if accessible.test prev then accessible.merge (summary (prev % kParityLane)) else accessible)

/-- The `for` loop, from `offset` on with `fuel` iterations left: the final `minimal_fences`. -/
def simplifyLoop (summary : Nat → FenceSet) (full : FenceSet) (id : Nat) :
    (fuel offset : Nat) → (minimal accessible : FenceSet) → FenceSet
  | 0, _, minimal, _ => minimal
  | fuel + 1, offset, minimal, accessible =>
    let (minimal, accessible) := visit summary full (id - offset) minimal accessible
    if accessible.contains full then minimal
    else simplifyLoop summary full id fuel (offset + 1) minimal accessible

/-- `collectAndSimplifyWaits`. -/
def collectAndSimplifyWaits (c : FenceLocalityCheck) (strong : FenceSet) (id : Nat)
    (implicitPreRaster : Bool) : FenceSet × FenceLocalityCheck :=
  let full := fullFences (strongFences strong id implicitPreRaster) id
  let minimal := simplifyLoop c.summary full id (kParityLane - 1) 1 ∅ ∅
  let c := ⟨Function.update c.summary (id % kParityLane) full⟩
  (if implicitPreRaster then minimal.unset (id - 1) else minimal, c)

/-! ## The full fences -/

theorem mem_weakFenceMask {id x : Nat} (h : 256 ≤ id) :
    x ∈ weakFenceMask id ↔ ∃ w, w + 64 ≤ id ∧ id ≤ w + 127 ∧ x % 256 = w % 256 := by
  rw [weakFenceMask, FenceSet.mem_fillGenerationBefore]
  simp only [kParityLane_eq, kLane_eq]
  constructor
  · rintro (⟨offset, ho, hx⟩ | hx)
    · exact ⟨id - 64 - offset, by omega, by omega, by omega⟩
    · exact absurd hx (FenceSet.not_mem_empty x)
  · rintro ⟨w, h1, h2, hx⟩
    exact Or.inl ⟨id - 64 - w, by omega, by omega⟩

/-- Every slot of `s` is the slot of one of the 63 ids before `id`. -/
def Recent (s : FenceSet) (id : Nat) : Prop :=
  ∀ x : Nat, x ∈ s → ∃ y, y < id ∧ id < y + 64 ∧ x % 256 = y % 256

theorem strongFences_recent {strong : FenceSet} {id : Nat} (h : Recent strong id) (hid : 256 ≤ id)
    (b : Bool) : Recent (strongFences strong id b) id := by
  intro x hx
  unfold strongFences at hx
  split at hx
  · rcases (FenceSet.mem_set _ _ _).mp hx with hx | hx
    · exact ⟨id - 1, by omega, by omega, hx⟩
    · exact h x hx
  · exact h x hx

theorem mem_fullFences (strong : FenceSet) (id x : Nat) :
    x ∈ fullFences strong id ↔
      x ∈ strong ∨ (x ∈ weakFenceMask id ∧ ¬ ∃ y : Nat, y % 64 = x % 64 ∧ y ∈ strong) := by
  rw [fullFences, FenceSet.mem_mergeWithLaneMaskOff, ← FenceSet.mem_laneMask, Bool.not_eq_true]

/-- A full fence names an id at most 127 back. -/
theorem fullFences_window {strong : FenceSet} {id : Nat} (h : Recent strong id) (hid : 256 ≤ id)
    {x : Nat} (hx : x ∈ fullFences strong id) :
    ∃ y, y < id ∧ id ≤ y + 127 ∧ x % 256 = y % 256 := by
  rcases (mem_fullFences strong id x).mp hx with hx | ⟨hx, -⟩
  · obtain ⟨y, h1, h2, h3⟩ := h x hx
    exact ⟨y, h1, by omega, h3⟩
  · obtain ⟨w, h1, h2, h3⟩ := (mem_weakFenceMask hid).mp hx
    exact ⟨w, by omega, h2, h3⟩

/-- An id 64 to 127 back is a full fence, or the id one generation after it is a strong one.
At distance 64 that id would be `id` itself, whose lane no strong fence has. -/
theorem weak_mem_fullFences {strong : FenceSet} {id x : Nat} (h : Recent strong id) (hid : 256 ≤ id)
    (h1 : x + 64 ≤ id) (h2 : id ≤ x + 127) :
    x ∈ fullFences strong id ∨ (x + 64 < id ∧ x + 64 ∈ strong) := by
  by_cases hl : ∃ y : Nat, y % 64 = x % 64 ∧ y ∈ strong
  · right
    obtain ⟨y, hyl, hy⟩ := hl
    obtain ⟨z, hz1, hz2, hz3⟩ := h y hy
    have hz : z = x + 64 := by omega
    subst hz
    exact ⟨hz1, (FenceSet.mem_congr strong hz3).mp hy⟩
  · exact Or.inl ((mem_fullFences strong id x).mpr
      (Or.inr ⟨(mem_weakFenceMask hid).mpr ⟨x, h1, h2, rfl⟩, hl⟩))

/-! ## The walk -/

section Loop

variable {summary : Nat → FenceSet} {full : FenceSet} {id : Nat}

/-- `visit`, by cases: the fence is not a full one, already accessible, or a new minimal fence. -/
theorem visit_eq (summary : Nat → FenceSet) (full : FenceSet) (prev : Nat)
    (minimal accessible : FenceSet) :
    visit summary full prev minimal accessible =
      let new := prev ∈ full ∧ ¬ prev ∈ accessible
      let accessible' := if new then accessible.set prev else accessible
      (if new then minimal.set prev else minimal,
        if prev ∈ accessible' then accessible'.merge (summary (prev % kParityLane))
        else accessible') := by
  unfold visit
  rw [FenceSet.testAndSet_eq]
  by_cases hf : prev ∈ full <;> by_cases ha : prev ∈ accessible <;> simp [hf, ha]

theorem simplifyLoop_succ (fuel offset : Nat) (minimal accessible : FenceSet) :
    simplifyLoop summary full id (fuel + 1) offset minimal accessible =
      if (visit summary full (id - offset) minimal accessible).2.contains full then
        (visit summary full (id - offset) minimal accessible).1
      else simplifyLoop summary full id fuel (offset + 1)
        (visit summary full (id - offset) minimal accessible).1
        (visit summary full (id - offset) minimal accessible).2 := rfl

theorem visit_mono {prev : Nat} {minimal accessible : FenceSet} {x : Nat} (h : x ∈ minimal) :
    x ∈ (visit summary full prev minimal accessible).1 := by
  rw [visit_eq]
  dsimp only
  split
  · exact (FenceSet.mem_set _ _ _).mpr (Or.inr h)
  · exact h

/-- The result holds every fence `minimal` ever had. -/
theorem simplifyLoop_mono {x : Nat} : ∀ (fuel offset : Nat) (minimal accessible : FenceSet),
    x ∈ minimal → x ∈ simplifyLoop summary full id fuel offset minimal accessible
  | 0, _, _, _, hx => hx
  | fuel + 1, offset, minimal, accessible, hx => by
    rw [simplifyLoop_succ]
    split
    · exact visit_mono hx
    · exact simplifyLoop_mono fuel (offset + 1) _ _ (visit_mono hx)

/-- Before offset `o`: every accessible slot is the slot of an ordered id at most `o + 126` back,
and every full fence less than `o` back is ordered. `P x` says that `x` is ordered before `id`. -/
structure Walked (full : FenceSet) (id : Nat) (P : Nat → Prop) (o : Nat) (accessible : FenceSet) :
    Prop where
  sound : ∀ s : Nat, s ∈ accessible → ∃ x, x < id ∧ id ≤ x + o + 126 ∧ s % 256 = x % 256 ∧ P x
  done : ∀ x, x < id → id < x + o → x ∈ full → P x

variable {P : Nat → Prop} {o : Nat} {minimal accessible : FenceSet}

/-- An accessible slot at offset `o` belongs to the id there: no alias is that far back. -/
theorem Walked.here (hw : Walked full id P o accessible) (h1 : 1 ≤ o) (h2 : o < 256)
    (hs : id - o ∈ accessible) : P (id - o) := by
  obtain ⟨y, hy1, hy2, hy3, hPy⟩ := hw.sound _ hs
  have : y = id - o := by omega
  exact this ▸ hPy

/-- The second half of an iteration: merging the summary of an accessible id keeps the walk sound,
because the order is closed under the summaries. -/
theorem Walked.merge (hw : Walked full id P o accessible) (h1 : 1 ≤ o) (h2 : o < 256)
    (hid : 256 ≤ id)
    (hsum : ∀ p, p < id → id < p + 256 → P p → ∀ s : Nat, s ∈ summary (p % 256) →
      ∃ x, x < p ∧ p ≤ x + 127 ∧ s % 256 = x % 256 ∧ P x)
    (hcur : id - o ∈ full → P (id - o)) :
    Walked full id P (o + 1) (if id - o ∈ accessible then
      accessible.merge (summary ((id - o) % kParityLane)) else accessible) := by
  constructor
  · intro s hs
    by_cases ht : id - o ∈ accessible
    · rw [if_pos ht, FenceSet.mem_merge] at hs
      rcases hs with hs | hs
      · obtain ⟨y, hy1, hy2, hy⟩ := hw.sound s hs
        exact ⟨y, hy1, by omega, hy⟩
      · obtain ⟨y, hy1, hy2, hy3, hPy⟩ :=
          hsum (id - o) (by omega) (by omega) (hw.here h1 h2 ht) s hs
        exact ⟨y, by omega, by omega, hy3, hPy⟩
    · rw [if_neg ht] at hs
      obtain ⟨y, hy1, hy2, hy⟩ := hw.sound s hs
      exact ⟨y, hy1, by omega, hy⟩
  · intro y hy1 hy2 hy
    by_cases he : y = id - o
    · subst he
      exact hcur hy
    · exact hw.done y hy1 (by omega) hy

/-- One iteration: a new minimal fence is ordered because it is in the result. -/
theorem Walked.visit (hw : Walked full id P o accessible) (hid : 256 ≤ id) (h1 : 1 ≤ o)
    (h2 : o < 256)
    (hsum : ∀ p, p < id → id < p + 256 → P p → ∀ s : Nat, s ∈ summary (p % 256) →
      ∃ x, x < p ∧ p ≤ x + 127 ∧ s % 256 = x % 256 ∧ P x)
    (hmin : id - o ∈ (visit summary full (id - o) minimal accessible).1 → P (id - o)) :
    Walked full id P (o + 1) (visit summary full (id - o) minimal accessible).2 := by
  rw [visit_eq] at hmin ⊢
  dsimp only at hmin ⊢
  by_cases hnew : id - o ∈ full ∧ ¬ id - o ∈ accessible
  · rw [if_pos hnew] at hmin ⊢
    have hP : P (id - o) := hmin ((FenceSet.mem_set _ _ _).mpr (Or.inl rfl))
    refine Walked.merge ⟨fun s hs => ?_, hw.done⟩ h1 h2 hid hsum fun _ => hP
    rcases (FenceSet.mem_set _ _ _).mp hs with hs | hs
    · exact ⟨id - o, by omega, by omega, hs, hP⟩
    · exact hw.sound s hs
  · rw [if_neg hnew]
    refine hw.merge h1 h2 hid hsum fun hf => hw.here h1 h2 ?_
    by_contra ha
    exact hnew ⟨hf, ha⟩

/-- **The walk drops no ordering.** If everything in the result is ordered and the order is closed
under the stored summaries, then every full fence is ordered. -/
theorem loop_sound (hid : 256 ≤ id)
    (hsum : ∀ p, p < id → id < p + 256 → P p → ∀ s : Nat, s ∈ summary (p % 256) →
      ∃ x, x < p ∧ p ≤ x + 127 ∧ s % 256 = x % 256 ∧ P x) :
    ∀ (fuel o : Nat) (minimal accessible : FenceSet), fuel + o = 256 → 1 ≤ o →
      (∀ x, x < id → id < x + 256 →
        x ∈ simplifyLoop summary full id fuel o minimal accessible → P x) →
      Walked full id P o accessible → ∀ x, x < id → id ≤ x + 127 → x ∈ full → P x
  | 0, o, _, _, ho, _, _, hw, x, hx1, hx2, hx => hw.done x hx1 (by omega) hx
  | fuel + 1, o, minimal, accessible, ho, h1, hP, hw, x, hx1, hx2, hx => by
    rw [simplifyLoop_succ] at hP
    have hnext : Walked full id P (o + 1)
        (FenceLocalityCheck.visit summary full (id - o) minimal accessible).2 := by
      refine hw.visit hid h1 (by omega) hsum fun hm => hP (id - o) (by omega) (by omega) ?_
      split
      · exact hm
      · exact simplifyLoop_mono _ _ _ _ hm
    split at hP
    · -- everything is accessible: a full fence not passed yet is not an alias either
      rename_i hc
      by_cases hpass : id < x + (o + 1)
      · exact hnext.done x hx1 hpass hx
      · obtain ⟨y, hy1, hy2, hy3, hPy⟩ := hnext.sound x ((FenceSet.contains_iff _ _).mp hc x hx)
        have : y = x := by omega
        exact this ▸ hPy
    · exact loop_sound hid hsum fuel (o + 1) _ _ (by omega) (by omega) hP hnext x hx1 hx2 hx

end Loop

/-! ## A sequence of calls

The ids are 256, 257, …; call `id` gets `strong id` and the flag `implicit id`. -/

section Run

variable (strong : Nat → FenceSet) (implicit : Nat → Bool)

/-- The checker after the first `n` calls, those of the ids below `256 + n`. -/
def runTo : Nat → FenceLocalityCheck
  | 0 => init
  | n + 1 =>
    ((runTo n).collectAndSimplifyWaits (strong (256 + n)) (256 + n) (implicit (256 + n))).2

/-- The fences the call for `id` returns. -/
def minimalFences (id : Nat) : FenceSet :=
  ((runTo strong implicit (id - 256)).collectAndSimplifyWaits (strong id) id (implicit id)).1

/-- `full_fences` of the call for `id`. -/
def full (id : Nat) : FenceSet := fullFences (strongFences (strong id) id (implicit id)) id

/-- Encoder `y` directly after encoder `x`: a returned fence, or the pre-raster id of a fragment
id, which comes first for free. -/
def Edge (x y : Nat) : Prop :=
  256 ≤ y ∧ (WaitsOn (minimalFences strong implicit y) x y ∨ (implicit y = true ∧ x + 1 = y))

/-- Encoder `y` is ordered after encoder `x`. -/
def Before : Nat → Nat → Prop := Relation.TransGen (Edge strong implicit)

variable {strong implicit}

/-- The summary of a slot is the full set of its last owner. -/
theorem summary_runTo : ∀ (n p : Nat), p < 256 + n → n ≤ p →
    (runTo strong implicit n).summary (p % 256) = if 256 ≤ p then full strong implicit p else ∅
  | 0, p, h1, _ => by rw [if_neg (by omega)]; rfl
  | n + 1, p, h1, h2 => by
    show Function.update (runTo strong implicit n).summary ((256 + n) % 256)
      (full strong implicit (256 + n)) (p % 256) = _
    by_cases hp : p = 256 + n
    · subst hp
      rw [Function.update_self, if_pos (by omega)]
    · rw [Function.update_of_ne (by omega)]
      exact summary_runTo n p (by omega) (by omega)

theorem mem_minimalFences {id x : Nat}
    (h : x ∈ simplifyLoop (runTo strong implicit (id - 256)).summary (full strong implicit id) id
      255 1 ∅ ∅) (hx : x < id) (hid : id < x + 256) :
    x ∈ minimalFences strong implicit id ∨ (implicit id = true ∧ x + 1 = id) := by
  by_cases hi : implicit id = true
  · by_cases he : x + 1 = id
    · exact Or.inr ⟨hi, he⟩
    · left
      show x ∈ (if implicit id then _ else _)
      rw [if_pos hi]
      exact (FenceSet.mem_unset _ _ _).mpr ⟨by omega, h⟩
  · left
    show x ∈ (if implicit id then _ else _)
    rw [if_neg hi]
    exact h

/-- **Every full fence is ordered before its encoder**, although most are not in the result. -/
theorem full_before (hrec : ∀ id, 256 ≤ id → Recent (strong id) id) (id : Nat) (hid : 256 ≤ id) :
    ∀ x, x < id → id ≤ x + 127 → x ∈ full strong implicit id → Before strong implicit x id := by
  induction id using Nat.strong_induction_on with
  | _ id ih =>
    have hempty : Walked (full strong implicit id) id (fun x => Before strong implicit x id) 1 ∅ :=
      ⟨fun s hs => absurd hs (FenceSet.not_mem_empty s), fun x hx1 hx2 _ => by omega⟩
    refine @loop_sound (runTo strong implicit (id - 256)).summary _ id _ hid ?_ 255 1 ∅ ∅ rfl
      le_rfl ?_ hempty
    · -- the order is closed under the summaries, by induction on the id
      intro p hp1 hp2 hP s hs
      rw [summary_runTo (id - 256) p (by omega) (by omega)] at hs
      by_cases hp : 256 ≤ p
      · rw [if_pos hp] at hs
        obtain ⟨y, hy1, hy2, hy3⟩ := fullFences_window (strongFences_recent (hrec p hp) hp _) hp hs
        have hy := (FenceSet.mem_congr _ hy3).mp hs
        exact ⟨y, hy1, hy2, hy3, (ih p hp1 hp y hy1 hy2 hy).trans hP⟩
      · rw [if_neg hp] at hs
        exact absurd hs (FenceSet.not_mem_empty s)
    · intro x hx1 hx2 hx
      refine Relation.TransGen.single ⟨hid, ?_⟩
      rcases mem_minimalFences hx hx1 hx2 with h | h
      · exact Or.inl ⟨h, hx1, hx2⟩
      · exact Or.inr h

/-- At distance 64 the order is direct: no strong fence has the lane of its own encoder. -/
theorem before_of_generation (hrec : ∀ id, 256 ≤ id → Recent (strong id) id) {x : Nat}
    (hx : 256 ≤ x + 64) : Before strong implicit x (x + 64) := by
  have hs := strongFences_recent (hrec (x + 64) hx) hx (implicit (x + 64))
  rcases weak_mem_fullFences hs hx le_rfl (by omega) with h | h
  · exact full_before hrec (x + 64) hx x (by omega) (by omega) h
  · omega

theorem before_of_old (hrec : ∀ id, 256 ≤ id → Recent (strong id) id) (id : Nat) :
    ∀ x, 256 ≤ x → x + 64 ≤ id → Before strong implicit x id := by
  induction id using Nat.strong_induction_on with
  | _ id ih =>
    intro x hx hold
    by_cases hnear : id ≤ x + 127
    · have hs := strongFences_recent (hrec id (by omega)) (by omega) (implicit id)
      rcases weak_mem_fullFences hs (by omega) hold hnear with h | ⟨hlt, h⟩
      · exact full_before hrec id (by omega) x (by omega) hnear h
      · have hmem : x + 64 ∈ full strong implicit id := (mem_fullFences _ _ _).mpr (Or.inl h)
        exact (before_of_generation hrec (by omega)).trans
          (full_before hrec id (by omega) (x + 64) hlt (by omega) hmem)
    · have hgen : Before strong implicit (id - 64) (id - 64 + 64) :=
        before_of_generation hrec (by omega)
      rw [Nat.sub_add_cancel (by omega)] at hgen
      exact (ih (id - 64) (by omega) x hx (by omega)).trans hgen

/-- **Wait simplification loses no ordering.** Every strong fence of a call is ordered before its
encoder, and so is every encoder at least 64 ids older; in particular the previous owner of a fence
slot comes before the new one. -/
theorem waits_keep_order (strong : Nat → FenceSet) (implicit : Nat → Bool)
    (hrec : ∀ id, 256 ≤ id → Recent (strong id) id) :
    (∀ id x, 256 ≤ id → x < id → id < x + 64 → x ∈ strong id → Before strong implicit x id) ∧
      ∀ x id, 256 ≤ x → x + 64 ≤ id → Before strong implicit x id := by
  refine ⟨fun id x hid hx1 hx2 hx => ?_, fun x id hx hold => before_of_old hrec id x hx hold⟩
  refine full_before hrec id hid x hx1 (by omega) ((mem_fullFences _ _ _).mpr (Or.inl ?_))
  unfold strongFences
  split
  · exact (FenceSet.mem_set _ _ _).mpr (Or.inr hx)
  · exact hx

/-- Every encoder waits on the one just before it. -/
theorem waits_keep_order_chain :
    (∀ id x, 256 ≤ id → x < id → id < x + 64 → x ∈ FenceSet.single (id - 1) →
        Before (fun id => FenceSet.single (id - 1)) (fun _ => false) x id) ∧
      ∀ x id, 256 ≤ x → x + 64 ≤ id →
        Before (fun id => FenceSet.single (id - 1)) (fun _ => false) x id :=
  waits_keep_order _ _ fun id hid x hx =>
    ⟨id - 1, by omega, by omega, (FenceSet.mem_single _ _).mp hx⟩

end Run

end FenceLocalityCheck

end Dxmt
