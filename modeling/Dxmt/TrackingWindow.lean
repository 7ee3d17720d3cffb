import Dxmt.Tracker
import Mathlib.Data.List.Infix

/-!
# What a tracking set still knows: `TrackingSet::enumerate`

The storage has `Sz + Forward` cells for the ids that `enumerate` can meet, but the cursor wraps at
`Sz`. So the set has the newest 64 ids, and the window below the current encoder and its successor
needs 65 of them.

* `enumerate_eq`: the calls of `enumerate` are the newest 64 readers, cut to the window.
* `enumeratesWindow_iff`: over every run of calls these are all readers in the window, unless all of
  the 65 ids were added.

Source: `dxmt_deptrack.hpp:201-255`.
-/

namespace Dxmt

/-- The template parameter `Forward` of `TrackingSet<>`. -/
def forward : Nat := 1

namespace TrackingSet

/-! ## Runs -/

/-- A call on the set. -/
inductive Call where
  | add (id : Nat)
  | clear
  | enumerate (idBefore : Nat)

/-- One call. -/
def Call.run (t : TrackingSet) : Call → TrackingSet
  | .add id => (t.add id).2
  | .clear => t.clear
  | .enumerate _ => t

/-- The ids that were added since the last `clear`, newest first. -/
def Call.added (ids : List Nat) : Call → List Nat
  | .add id => id :: ids
  | .clear => []
  | .enumerate _ => ids

/-- The set after some calls, from a storage that was not initialised. -/
def run (garbage : Nat → Nat) (calls : List Call) : TrackingSet :=
  calls.foldl Call.run (init garbage)

/-- The ids that have been added since the last `clear`. -/
def added (calls : List Call) : List Nat :=
  calls.foldl Call.added []

/-- Between two calls of `clear` the ids do not decrease. -/
def InOrder (calls : List Call) : Prop :=
  ∀ front, front <+: calls → (added front).Pairwise (· ≥ ·)

/-- `enumerate` calls the function once for each id in the window that was added, for no other one,
and returns how many there were. -/
def EnumeratesWindow (t : TrackingSet) (idBefore : Nat) (ids : List Nat) : Prop :=
  ∃ visited : List Nat, visited.Nodup ∧
    (∀ id, id ∈ visited ↔ id ∈ ids ∧ idBefore - kLane < id ∧ id < idBefore) ∧
    ∀ (σ : Type) (fn : Nat → σ → σ) (s : σ),
      t.enumerate idBefore fn s = (visited.length, visited.foldl (fun s id => fn id s) s)

/-- The id is one that the window or the current encoder asks for. -/
def Near (idBefore id : Nat) : Prop :=
  idBefore - kLane < id ∧ id ≤ idBefore + forward

/-! ## Strictly decreasing lists -/

section Decreasing

variable {L : List Nat} {m j k x y : Nat}

/-- Between two entries there is room for those in between. -/
theorem add_le_getElem? (hs : L.Pairwise (· > ·)) (hk : L[k]? = some y) (hj : L[k + j]? = some x) :
    x + j ≤ y := by
  have hhead : ∀ z, (L.drop k).head? = some z → z ≤ y := by
    intro z hz
    rw [List.head?_drop, hk] at hz
    cases hz
    exact Nat.le_refl y
  have hdrop : (L.drop k)[j]? = some x := by
    rw [List.getElem?_drop]
    exact hj
  have hle := add_le_of_getElem? (hs.sublist (List.drop_sublist k L)) hhead hdrop
  omega

/-- An entry as far below the bound as it can be has all numbers in front of it. -/
theorem mem_of_add_eq (hs : L.Pairwise (· > ·)) (hm : ∀ y ∈ L, y ≤ m) (hj : L[j]? = some x)
    (hfull : j + x = m) : ∀ z, x ≤ z → z ≤ m → z ∈ L := by
  intro z hxz hzm
  obtain ⟨hlen, -⟩ := List.getElem?_eq_some_iff.mp hj
  have hk : m - z < L.length := by omega
  have hget := List.getElem?_eq_getElem hk
  have hbound : m - z + L[m - z] ≤ m :=
    add_le_of_getElem? hs (fun y hy => hm y (List.mem_of_mem_head? hy)) hget
  have hroom : x + (j - (m - z)) ≤ L[m - z] := by
    refine add_le_getElem? hs hget ?_
    rw [show m - z + (j - (m - z)) = j by omega]
    exact hj
  have hz : L[m - z] = z := by omega
  exact hz ▸ List.getElem_mem hk

/-- A list with all numbers from a bound down to `m - n` has the last of them at `n`. -/
theorem getElem?_of_mem (hs : L.Pairwise (· > ·)) (hm : ∀ y ∈ L, y ≤ m) {n : Nat} (hn : n ≤ m)
    (hall : ∀ z, m - n ≤ z → z ≤ m → z ∈ L) : L[n]? = some (m - n) := by
  induction n generalizing L m with
  | zero =>
    have hmem := hall m (Nat.sub_le m 0) (Nat.le_refl m)
    cases L with
    | nil => cases hmem
    | cons y L =>
      have hy := hm y List.mem_cons_self
      rcases List.mem_cons.mp hmem with rfl | hmem
      · rfl
      · have hlt := (List.pairwise_cons.mp hs).1 m hmem
        omega
  | succ n ih =>
    have hmem := hall m (Nat.sub_le m (n + 1)) (Nat.le_refl m)
    cases L with
    | nil => cases hmem
    | cons y L =>
      obtain ⟨hbelow, hs⟩ := List.pairwise_cons.mp hs
      have hy : y = m := by
        have hle := hm y List.mem_cons_self
        rcases List.mem_cons.mp hmem with rfl | hmem
        · rfl
        · have hlt := hbelow m hmem
          omega
      subst hy
      have hrest : ∀ z, y - 1 - n ≤ z → z ≤ y - 1 → z ∈ L := by
        intro z hlow hhigh
        rcases List.mem_cons.mp (hall z (by omega) (by omega)) with rfl | hz
        · omega
        · exact hz
      have hget := ih (m := y - 1) hs (fun z hz => by have hlt := hbelow z hz; omega)
          (by omega) hrest
      rw [List.getElem?_cons_succ, hget]
      congr 1
      omega

end Decreasing

/-! ## The calls of one enumeration -/

/-- The function is called for this id. -/
def inWindow (idBefore id : Nat) : Bool :=
  decide (idBefore - kLane < id ∧ id < idBefore)

theorem inWindow_iff {idBefore id : Nat} :
    inWindow idBefore id = true ↔ idBefore - 64 < id ∧ id < idBefore := by
  rw [inWindow, decide_eq_true_eq, kLane_eq]

/-- The newest entries in the window. -/
def newest (L : List Nat) (idBefore : Nat) : List Nat :=
  (L.take kLane).filter (inWindow idBefore)

/-- The loop from `i` on calls the function for the entries from there on. -/
theorem enumerateLoop_eq {σ : Type} {t : TrackingSet} {L : List Nat} (h : Ring t L)
    (hs : L.Pairwise (· > ·)) {idBefore : Nat} (hid : 64 < idBefore) (fn : Nat → σ → σ)
    {fuel i : Nat} (hi : i + fuel = 64) (hle : i ≤ L.length) (count : Nat) (s : σ) :
    t.enumerateLoop idBefore fn fuel i count s =
      (count + (((L.drop i).take fuel).filter (inWindow idBefore)).length,
        (((L.drop i).take fuel).filter (inWindow idBefore)).foldl (fun s id => fn id s) s) := by
  induction fuel generalizing i count s with
  | zero => rfl
  | succ fuel ih =>
    rw [enumerateLoop_succ]
    rcases Nat.lt_or_eq_of_le hle with hlt | rfl
    · have hentry := h.entry_eq i (by omega) L[i] (List.getElem?_eq_getElem hlt)
      have hrest := fun count s => ih (i := i + 1) (by omega) hlt count s
      rw [hentry, List.drop_eq_getElem_cons hlt, List.take_succ_cons]
      by_cases hnew : idBefore ≤ L[i]
      · rw [if_pos hnew, hrest, List.filter_cons_of_neg (by rw [inWindow_iff]; omega)]
      · rw [if_neg hnew]
        by_cases hold : idBefore - 64 < L[i]
        · rw [if_pos hold, hrest, List.filter_cons_of_pos (inWindow_iff.mpr ⟨hold, by omega⟩)]
          simp only [List.length_cons, List.foldl_cons, Prod.mk.injEq, and_true]
          omega
        · -- all that follow are older still
          have hnone : (L[i] :: (L.drop (i + 1)).take fuel).filter (inWindow idBefore) = [] := by
            refine List.filter_eq_nil_iff.mpr fun x hx => ?_
            have hxle : x ≤ L[i] := by
              rcases List.mem_cons.mp hx with rfl | hx
              · exact Nat.le_refl _
              · have hsorted := hs.sublist (List.drop_sublist i L)
                rw [List.drop_eq_getElem_cons hlt] at hsorted
                exact Nat.le_of_lt ((List.pairwise_cons.mp hsorted).1 x (List.mem_of_mem_take hx))
            rw [inWindow_iff]
            omega
          rw [if_neg hold, hnone]
          rfl
    · -- the zero that `clear` has left
      have hentry := h.marker (by omega)
      rw [hentry, if_neg (by omega), if_neg (by omega), List.drop_length, List.take_nil]
      rfl

/-- **What `enumerate` does**, for every function. -/
theorem enumerate_eq {σ : Type} {t : TrackingSet} {L : List Nat} (h : Ring t L)
    (hs : L.Pairwise (· > ·)) {idBefore : Nat} (hid : 64 < idBefore) (fn : Nat → σ → σ) (s : σ) :
    t.enumerate idBefore fn s =
      ((newest L idBefore).length, (newest L idBefore).foldl (fun s id => fn id s) s) := by
  rw [enumerate, enumerateLoop_eq h hs hid fn (by rw [kLane_eq]) (Nat.zero_le _), Nat.zero_add]
  rfl

/-- The visited ids are determined by what the calls do. -/
theorem visited_eq {t : TrackingSet} {L visited : List Nat} (h : Ring t L) (hs : L.Pairwise (· > ·))
    {idBefore : Nat} (hid : 64 < idBefore)
    (hvisited : ∀ (σ : Type) (fn : Nat → σ → σ) (s : σ),
      t.enumerate idBefore fn s = (visited.length, visited.foldl (fun s id => fn id s) s)) :
    visited = newest L idBefore := by
  have hcalls := (hvisited (List Nat) (fun id ids => id :: ids) []).symm.trans
    (enumerate_eq h hs hid (fun id ids => id :: ids) [])
  have hfold : ∀ ids : List Nat, ids.foldl (fun s id => id :: s) [] = ids.reverse := fun ids =>
      by simp
  rw [hfold, hfold] at hcalls
  exact List.reverse_injective (Prod.mk.inj hcalls).2

/-! ## The readers of a run -/

/-- The set stands for the ids that were added, without the repeated ones and zero. -/
def Tracks (t : TrackingSet) (ids : List Nat) : Prop :=
  ∃ L, Ring t L ∧ L.Pairwise (· > ·) ∧ ∀ id, id ∈ L ↔ id ∈ ids ∧ id ≠ 0

/-- An id that adds nothing to the entries. -/
theorem mem_iff_of_known {L ids : List Nat} {id : Nat} (hmem : ∀ x, x ∈ L ↔ x ∈ ids ∧ x ≠ 0)
    (hknown : id ≠ 0 → id ∈ ids) (x : Nat) : x ∈ L ↔ x ∈ id :: ids ∧ x ≠ 0 := by
  rw [hmem, List.mem_cons]
  constructor
  · rintro ⟨hx, hne⟩
    exact ⟨.inr hx, hne⟩
  · rintro ⟨rfl | hx, hne⟩
    · exact ⟨hknown hne, hne⟩
    · exact ⟨hx, hne⟩

theorem mem_cons_iff_of_ne {L ids : List Nat} {id : Nat} (hmem : ∀ x, x ∈ L ↔ x ∈ ids ∧ x ≠ 0)
    (hid : id ≠ 0) (x : Nat) : x ∈ id :: L ↔ x ∈ id :: ids ∧ x ≠ 0 := by
  rw [List.mem_cons, List.mem_cons, hmem]
  constructor
  · rintro (rfl | ⟨hx, hne⟩)
    · exact ⟨.inl rfl, hid⟩
    · exact ⟨.inr hx, hne⟩
  · rintro ⟨rfl | hx, hne⟩
    · exact .inl rfl
    · exact .inr ⟨hx, hne⟩

/-- A bound that is not the newest entry is above all entries. -/
theorem lt_of_head?_ne {L : List Nat} {id : Nat} (hs : L.Pairwise (· > ·)) (hle : ∀ x ∈ L, x ≤ id)
    (hlast : L.head? ≠ some id) : ∀ x ∈ L, x < id := by
  intro x hx
  refine Nat.lt_of_le_of_ne (hle x hx) ?_
  rintro rfl
  -- the newest entry would be the same id
  cases L with
  | nil => cases hx
  | cons y L =>
    have hy := hle y List.mem_cons_self
    rcases List.mem_cons.mp hx with rfl | hx
    · exact hlast rfl
    · have hlt := (List.pairwise_cons.mp hs).1 x hx
      omega

theorem tracks_add {t : TrackingSet} {ids : List Nat} {id : Nat} (h : Tracks t ids)
    (hid : ∀ x ∈ ids, x ≤ id) : Tracks (t.add id).2 (id :: ids) := by
  obtain ⟨L, hring, hs, hmem⟩ := h
  have hle : ∀ x ∈ L, x ≤ id := fun x hx => hid x ((hmem x).mp hx).1
  -- an id that is in the newest cell changes nothing
  have hsame : t.storage t.cursor = id → (t.add id).2 = t := by
    intro heq
    rw [add, if_pos heq]
  by_cases hzero : id = 0
  · subst hzero
    have hnil : L = [] := List.eq_nil_iff_forall_not_mem.mpr fun x hx =>
      ((hmem x).mp hx).2 (Nat.le_zero.mp (hle x hx))
    subst hnil
    have hmarker := hring.marker (Nat.zero_lt_succ 63)
    rw [List.length_nil, entry_zero hring.cursor_lt] at hmarker
    rw [hsame hmarker]
    exact ⟨[], hring, hs, mem_iff_of_known hmem fun hne => absurd rfl hne⟩
  · by_cases hlast : L.head? = some id
    · have hstored : t.storage t.cursor = id :=
        beq_iff_eq.mp ((isLastAccess_iff hring hzero).mpr hlast)
      have hknown := (hmem id).mp (List.mem_of_mem_head? hlast)
      rw [hsame hstored]
      exact ⟨L, hring, hs, mem_iff_of_known hmem fun _ => hknown.1⟩
    · have habove := lt_of_head?_ne hs hle hlast
      exact ⟨id :: L, ring_add hring hzero hlast, List.pairwise_cons.mpr ⟨habove, hs⟩,
        mem_cons_iff_of_ne hmem hzero⟩

theorem tracks_clear {t : TrackingSet} {ids : List Nat} (h : Tracks t ids) : Tracks t.clear [] := by
  obtain ⟨L, hring, -, -⟩ := h
  exact ⟨[], ring_clear hring.cursor_lt, .nil, fun x => by simp only [List.not_mem_nil, false_and]⟩

theorem tracks_init (garbage : Nat → Nat) : Tracks (init garbage) [] :=
  ⟨[], ring_init garbage, .nil, fun x => by simp only [List.not_mem_nil, false_and]⟩

/-- What a call keeps: its ids do not decrease. -/
theorem tracks_call {t : TrackingSet} {ids : List Nat} (h : Tracks t ids) (call : Call)
    (hids : (call.added ids).Pairwise (· ≥ ·)) : Tracks (call.run t) (call.added ids) := by
  cases call with
  | add id => exact tracks_add h (List.pairwise_cons.mp hids).1
  | clear => exact tracks_clear h
  | enumerate idBefore => exact h

theorem tracks_run (garbage : Nat → Nat) {calls : List Call} (h : InOrder calls) :
    Tracks (run garbage calls) (added calls) := by
  induction calls using List.reverseRecOn with
  | nil => exact tracks_init garbage
  | append_singleton calls call ih =>
    have hcalls := h _ (List.prefix_refl _)
    unfold run added at ih hcalls ⊢
    rw [List.foldl_append] at hcalls
    rw [List.foldl_append, List.foldl_append]
    exact tracks_call (ih fun front hfront => h front (hfront.trans (List.prefix_append _ _)))
        call hcalls

/-! ## The window -/

section Window

variable {t : TrackingSet} {L : List Nat} {idBefore : Nat}

theorem enumeratesWindow_iff_newest {ids : List Nat} (h : Ring t L) (hs : L.Pairwise (· > ·))
    (hid : 64 < idBefore) (hmem : ∀ id, id ∈ L ↔ id ∈ ids ∧ id ≠ 0) :
    EnumeratesWindow t idBefore ids ↔
      ∀ id ∈ L, idBefore - 64 < id → id < idBefore → id ∈ L.take 64 := by
  constructor
  · rintro ⟨visited, -, hexact, hvisited⟩ id hL hlow hhigh
    have hseen := (hexact id).mpr ⟨((hmem id).mp hL).1, hlow, hhigh⟩
    rw [visited_eq h hs hid hvisited] at hseen
    exact (List.mem_filter.mp hseen).1
  · intro htake
    refine ⟨newest L idBefore, ?_, fun id => ?_, fun σ fn s => enumerate_eq h hs hid fn s⟩
    · have hnodup : L.Nodup := hs.imp fun hlt => Nat.ne_of_gt hlt
      exact (hnodup.sublist (List.take_sublist _ _)).filter _
    · rw [newest, List.mem_filter, inWindow_iff, kLane_eq]
      constructor
      · rintro ⟨htaken, hwindow⟩
        exact ⟨((hmem id).mp (List.mem_of_mem_take htaken)).1, hwindow⟩
      · rintro ⟨hids, hlow, hhigh⟩
        have hL := (hmem id).mpr ⟨hids, by omega⟩
        exact ⟨htake id hL hlow hhigh, hlow, hhigh⟩

/-- The newest 64 have the window, unless the ring is one cell short. -/
theorem window_taken_iff (hs : L.Pairwise (· > ·)) (hid : 64 < idBefore)
    (hle : ∀ id ∈ L, id ≤ idBefore + 1) :
    (∀ id ∈ L, idBefore - 64 < id → id < idBefore → id ∈ L.take 64) ↔
      ¬∀ id, idBefore - 64 < id → id ≤ idBefore + 1 → id ∈ L := by
  constructor
  · intro htake hall
    -- the oldest id of the window is at 64
    have holdest : L[64]? = some (idBefore + 1 - 64) :=
      getElem?_of_mem hs hle (by omega) fun z hlow hhigh => hall z (by omega) hhigh
    have hin := htake (idBefore + 1 - 64) (List.mem_of_getElem? holdest) (by omega) (by omega)
    obtain ⟨j, hj⟩ := List.mem_iff_getElem?.mp hin
    have hj64 : j < 64 := by
      obtain ⟨hlen, -⟩ := List.getElem?_eq_some_iff.mp hj
      rw [List.length_take] at hlen
      omega
    rw [List.getElem?_take_of_lt hj64] at hj
    have hlast : L[j + (64 - j)]? = some (idBefore + 1 - 64) := by
      rw [Nat.add_sub_cancel' (Nat.le_of_lt hj64)]
      exact holdest
    have hroom := add_le_getElem? hs hj hlast
    omega
  · intro hmissing id hL hlow hhigh
    obtain ⟨j, hj⟩ := List.mem_iff_getElem?.mp hL
    have hbound := add_le_of_getElem? hs (fun y hy => hle y (List.mem_of_mem_head? hy)) hj
    have hj64 : j < 64 := by
      by_contra hge
      -- then all ids down to this one are there
      refine hmissing fun z hz hz' => mem_of_add_eq hs hle hj (by omega) z (by omega) hz'
    exact List.mem_iff_getElem?.mpr ⟨j, by rw [List.getElem?_take_of_lt hj64]; exact hj⟩

end Window

/-- **Every reader in the window**, in every run, exactly if not all of the 65 near ids were added
since the last `clear`. -/
theorem enumeratesWindow_iff (garbage : Nat → Nat) {calls : List Call} (h : InOrder calls)
    {idBefore : Nat} (hid : kLane < idBefore) (hids : ∀ id ∈ added calls, id ≤ idBefore + forward) :
    EnumeratesWindow (run garbage calls) idBefore (added calls) ↔
      ¬∀ id, Near idBefore id → id ∈ added calls := by
  obtain ⟨L, hring, hs, hmem⟩ := tracks_run garbage h
  rw [kLane_eq] at hid
  have hle : ∀ id ∈ L, id ≤ idBefore + 1 := fun id hL => hids id ((hmem id).mp hL).1
  rw [enumeratesWindow_iff_newest hring hs hid hmem, window_taken_iff hs hid hle]
  refine not_congr (forall_congr' fun id => ?_)
  unfold Near forward
  rw [kLane_eq]
  constructor
  · rintro hall ⟨hlow, hhigh⟩
    exact ((hmem id).mp (hall hlow hhigh)).1
  · intro hall hlow hhigh
    exact (hmem id).mpr ⟨hall ⟨hlow, hhigh⟩, by omega⟩

/-! ### A ring that is one cell short -/

theorem added_adds (ids : List Nat) : added (ids.map .add) = ids.reverse := by
  have hfold : ∀ acc : List Nat, (ids.map Call.add).foldl Call.added acc = ids.reverse ++ acc := by
    induction ids with
    | nil => exact fun acc => rfl
    | cons id ids ih =>
      intro acc
      rw [List.map_cons, List.foldl_cons, ih, List.reverse_cons, List.append_assoc]
      rfl
  rw [added, hfold, List.append_nil]

theorem inOrder_adds {ids : List Nat} (h : ids.Pairwise (· ≤ ·)) : InOrder (ids.map .add) := by
  intro front hfront
  obtain ⟨k, rfl⟩ : ∃ k, front = (ids.take k).map .add :=
    ⟨front.length, by rw [List.map_take]; exact List.prefix_iff_eq_take.mp hfront⟩
  rw [added_adds, List.pairwise_reverse]
  exact h.sublist (List.take_sublist k ids)

/-- The ids from 36 to 100, each a reader. -/
def crowded : List Call :=
  (List.range' 36 65).map .add

theorem inOrder_crowded : InOrder crowded :=
  inOrder_adds ((@List.pairwise_lt_range' 36 65 1 (by decide)).imp Nat.le_of_lt)

/-- Encoder 99 does not wait for encoder 36. -/
theorem not_enumeratesWindow_crowded :
    ¬EnumeratesWindow (run (fun _ => 0) crowded) 99 (added crowded) := by
  obtain ⟨L, hring, hs, hmem⟩ := tracks_run (fun _ => 0) inOrder_crowded
  have hcrowded : ∀ id, id ∈ added crowded ↔ 36 ≤ id ∧ id < 101 := by
    intro id
    rw [crowded, added_adds, List.mem_reverse, List.mem_range'_1]
  rw [enumeratesWindow_iff_newest hring hs (by decide) hmem, window_taken_iff hs (by decide)
    fun id hL => by have hid := (hcrowded id).mp ((hmem id).mp hL).1; omega]
  intro hmissing
  refine hmissing fun id hlow hhigh => (hmem id).mpr ⟨(hcrowded id).mpr ?_, ?_⟩ <;> omega

theorem enumeratesWindow_iff_crowded :
    InOrder crowded ∧ kLane < 99 ∧ (∀ id ∈ added crowded, id ≤ 99 + forward) ∧
      (EnumeratesWindow (run (fun _ => 0) crowded) 99 (added crowded) ↔
        ¬∀ id, Near 99 id → id ∈ added crowded) := by
  have hlane : kLane < 99 := by decide
  have hids : ∀ id ∈ added crowded, id ≤ 99 + forward := by decide
  exact ⟨inOrder_crowded, hlane, hids, enumeratesWindow_iff (fun _ => 0) inOrder_crowded hlane hids⟩

end TrackingSet

end Dxmt
