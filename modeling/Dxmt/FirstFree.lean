import Mathlib.Data.Finset.Card
import Mathlib.Data.Finset.Range
import Mathlib.Data.List.Dedup
import Mathlib.Data.List.Pairwise
import Mathlib.Tactic.Linarith

/-!
# Allocation by preference

Places are numbers. Who comes gets the place it prefers, or the first free one when that is taken.
After any sequence of wishes the places taken are the wishes and an initial segment of the numbers,
and how long the segment is depends on the wishes only (`level`, `mem_taken_iff`). Who grows the
segment is who did not get what it asked for (`place_eq`).

Each gets one place though it may use a range of them that begins there. `separate_iff_fits` says
when the ranges stay apart and within a bound.
-/

namespace Dxmt

namespace FirstFree

/-- The first free place from `slot` on, looked for at most `fuel` times. -/
def firstFree (used : List ℕ) : ℕ → ℕ → ℕ
  | slot, 0 => slot
  | slot, fuel + 1 => if slot ∈ used then firstFree used (slot + 1) fuel else slot

/-- The first free number: all before it are taken, it is not. -/
theorem firstFree_spec (used : List ℕ) (slot fuel : ℕ) :
    (∀ x, slot ≤ x → x < firstFree used slot fuel → x ∈ used) ∧
      (firstFree used slot fuel ∈ used → firstFree used slot fuel = slot + fuel) ∧
      firstFree used slot fuel ≤ slot + fuel := by
  induction fuel generalizing slot with
  | zero =>
    refine ⟨?_, fun _ => rfl, le_rfl⟩
    intro x hx hx'
    simp only [firstFree] at hx'
    omega
  | succ fuel ih =>
    by_cases h : slot ∈ used
    · simp only [firstFree, h, if_true]
      obtain ⟨ih₁, ih₂, ih₃⟩ := ih (slot + 1)
      refine ⟨?_, ?_, by omega⟩
      · intro x hx hx'
        rcases eq_or_lt_of_le hx with rfl | hlt
        · exact h
        · exact ih₁ x hlt hx'
      · intro hmem
        have := ih₂ hmem
        omega
    · simp only [firstFree, h, if_false]
      exact ⟨fun x hx hx' => absurd hx' (by omega), False.elim, by omega⟩

/-- The first free place: as many places as are taken are looked at, one of them or the next one is
free. -/
def nextFree (used : List ℕ) : ℕ := firstFree used 0 used.length

theorem mem_of_lt_nextFree {used : List ℕ} {x : ℕ} (hx : x < nextFree used) : x ∈ used :=
  (firstFree_spec used 0 used.length).1 x (Nat.zero_le x) hx

/-- The next free number is free. -/
theorem nextFree_notMem (used : List ℕ) : nextFree used ∉ used := by
  intro hmem
  have heq : nextFree used = 0 + used.length := (firstFree_spec used 0 used.length).2.1 hmem
  have hsub : Finset.range (used.length + 1) ⊆ used.toFinset := by
    intro x hx
    rw [Finset.mem_range] at hx
    rw [List.mem_toFinset]
    by_cases hlt : x < nextFree used
    · exact mem_of_lt_nextFree hlt
    · have : x = nextFree used := by omega
      rwa [this]
  have hcard := Finset.card_le_card hsub
  rw [Finset.card_range] at hcard
  have := List.toFinset_card_le used
  omega

/-- The place given to who prefers `wish`. -/
def place (used : List ℕ) (wish : ℕ) : ℕ := if wish ∈ used then nextFree used else wish

/-- A place is free. -/
theorem place_notMem (used : List ℕ) (wish : ℕ) : place used wish ∉ used := by
  unfold place
  split
  · exact nextFree_notMem used
  · assumption

/-- The places taken after the wishes. -/
def taken (wishes : List ℕ) : List ℕ := wishes.foldl (fun used wish => place used wish :: used) []

@[simp] theorem taken_nil : taken [] = [] := rfl

theorem taken_concat (wishes : List ℕ) (wish : ℕ) :
    taken (wishes ++ [wish]) = place (taken wishes) wish :: taken wishes := by
  simp [taken]

@[simp] theorem length_taken (wishes : List ℕ) : (taken wishes).length = wishes.length := by
  induction wishes using List.reverseRecOn with
  | nil => rfl
  | append_singleton wishes wish ih => simp [taken_concat, ih]

theorem nodup_taken (wishes : List ℕ) : (taken wishes).Nodup := by
  induction wishes using List.reverseRecOn with
  | nil => exact List.nodup_nil
  | append_singleton wishes wish ih =>
    rw [taken_concat]
    exact List.nodup_cons.mpr ⟨place_notMem _ _, ih⟩

/-- The places taken are the wishes and the numbers below `level`, and the last of these is no wish.
-/
structure Filled (wishes : List ℕ) (level : ℕ) : Prop where
  mem_iff : ∀ x, x ∈ taken wishes ↔ x ∈ wishes ∨ x < level
  last_notMem : ∀ x, level = x + 1 → x ∉ wishes

theorem Filled.nil : Filled [] 0 := ⟨by simp, by simp⟩

/-- Who gets what it asks for leaves the level. -/
theorem Filled.keep {wishes : List ℕ} {level wish : ℕ} (h : Filled wishes level)
    (hfree : wish ∉ taken wishes) : Filled (wishes ++ [wish]) level where
  mem_iff x := by
    simp only [taken_concat, place, hfree, if_false, List.mem_cons, List.mem_append,
      List.not_mem_nil, or_false, h.mem_iff]
    tauto
  last_notMem x hx := by
    have hne : x ≠ wish := by
      rintro rfl
      exact hfree ((h.mem_iff x).mpr (Or.inr (by omega)))
    simp [h.last_notMem x hx, hne]

/-- Who finds its wish taken raises the level to just above the place it gets. -/
theorem Filled.move {wishes : List ℕ} {level wish : ℕ} (h : Filled wishes level)
    (hused : wish ∈ taken wishes) : Filled (wishes ++ [wish]) (nextFree (taken wishes) + 1) where
  mem_iff x := by
    simp only [taken_concat, place, hused, if_true, List.mem_cons, List.mem_append,
      List.not_mem_nil, or_false]
    constructor
    · rintro (rfl | hx)
      · right
        omega
      · rcases (h.mem_iff x).mp hx with hx | hx
        · exact Or.inl (Or.inl hx)
        · right
          by_contra hle
          exact nextFree_notMem _ ((h.mem_iff _).mpr (Or.inr (by omega)))
    · rintro ((hx | rfl) | hx)
      · exact Or.inr ((h.mem_iff x).mpr (Or.inl hx))
      · exact Or.inr hused
      · rcases Nat.lt_succ_iff_lt_or_eq.mp hx with hlt | rfl
        · exact Or.inr (mem_of_lt_nextFree hlt)
        · exact Or.inl rfl
  last_notMem x hx := by
    obtain rfl : nextFree (taken wishes) = x := by omega
    have hfree := nextFree_notMem (taken wishes)
    have hwishes : nextFree (taken wishes) ∉ wishes :=
      fun hmem => hfree ((h.mem_iff _).mpr (Or.inl hmem))
    have hne : nextFree (taken wishes) ≠ wish := fun heq => hfree (heq ▸ hused)
    simp [hwishes, hne]

/-- The wishes at or above `t`, each counted once. -/
def above (wishes : List ℕ) (t : ℕ) : Finset ℕ := wishes.toFinset.filter (t ≤ ·)

theorem exists_level (wishes : List ℕ) : ∃ t, wishes.length ≤ t + (above wishes t).card :=
  ⟨wishes.length, by omega⟩

/-- The least number that, with the different wishes from it on, makes up the number of the wishes.
-/
def level (wishes : List ℕ) : ℕ := Nat.find (exists_level wishes)

/-- The first `t` numbers and the wishes. -/
theorem card_range_union (wishes : List ℕ) (t : ℕ) :
    (Finset.range t ∪ wishes.toFinset).card = t + (above wishes t).card := by
  have heq : Finset.range t ∪ wishes.toFinset = Finset.range t ∪ above wishes t := by
    ext x
    simp only [above, Finset.mem_union, Finset.mem_range, Finset.mem_filter]
    by_cases hx : x < t
    · simp [hx]
    · simp [hx, Nat.le_of_not_lt hx]
  have hdisj : Disjoint (Finset.range t) (above wishes t) := by
    rw [Finset.disjoint_left]
    intro x hx hx'
    simp only [above, Finset.mem_range, Finset.mem_filter] at hx hx'
    omega
  rw [heq, Finset.card_union_of_disjoint hdisj, Finset.card_range]

theorem Filled.toFinset_taken {wishes : List ℕ} {t : ℕ} (h : Filled wishes t) :
    (taken wishes).toFinset = Finset.range t ∪ wishes.toFinset := by
  ext x
  simp only [List.mem_toFinset, h.mem_iff, Finset.mem_union, Finset.mem_range]
  tauto

/-- There is one level at which the wishes are filled. -/
theorem Filled.level_eq {wishes : List ℕ} {t : ℕ} (h : Filled wishes t) : level wishes = t := by
  have hcard : wishes.length = (Finset.range t ∪ wishes.toFinset).card := by
    rw [← h.toFinset_taken, List.toFinset_card_of_nodup (nodup_taken wishes), length_taken]
  unfold level
  rw [Nat.find_eq_iff]
  refine ⟨by rw [hcard, card_range_union], ?_⟩
  intro s hs
  -- below `t` the last place of the segment is missing
  rw [not_le, ← card_range_union, hcard]
  refine Finset.card_lt_card ?_
  rw [Finset.ssubset_iff_of_subset (Finset.union_subset_union_left (Finset.range_mono hs.le))]
  refine ⟨t - 1, ?_, ?_⟩
  · exact Finset.mem_union_left _ (Finset.mem_range.mpr (by omega))
  · rw [Finset.mem_union, Finset.mem_range, List.mem_toFinset]
    rintro (hlt | hmem)
    · omega
    · exact h.last_notMem (t - 1) (by omega) hmem

theorem filled_level (wishes : List ℕ) : Filled wishes (level wishes) := by
  have hex : ∃ t, Filled wishes t := by
    induction wishes using List.reverseRecOn with
    | nil => exact ⟨0, Filled.nil⟩
    | append_singleton wishes wish ih =>
      obtain ⟨t, ht⟩ := ih
      by_cases hused : wish ∈ taken wishes
      · exact ⟨_, ht.move hused⟩
      · exact ⟨_, ht.keep hused⟩
  obtain ⟨t, ht⟩ := hex
  rw [ht.level_eq]
  exact ht

theorem mem_taken_iff {wishes : List ℕ} {x : ℕ} :
    x ∈ taken wishes ↔ x ∈ wishes ∨ x < level wishes :=
  (filled_level wishes).mem_iff x

theorem level_concat (wishes : List ℕ) (wish : ℕ) :
    level (wishes ++ [wish]) =
      if wish ∈ taken wishes then nextFree (taken wishes) + 1 else level wishes := by
  split
  next hused => exact ((filled_level wishes).move hused).level_eq
  next hfree => exact ((filled_level wishes).keep hfree).level_eq

theorem level_le_nextFree (wishes : List ℕ) : level wishes ≤ nextFree (taken wishes) := by
  by_contra hlt
  exact nextFree_notMem (taken wishes) (mem_taken_iff.mpr (Or.inr (by omega)))

theorem level_mono (wishes more : List ℕ) : level wishes ≤ level (wishes ++ more) := by
  induction more using List.reverseRecOn with
  | nil => simp
  | append_singleton more wish ih =>
    rw [← List.append_assoc, level_concat]
    split
    · have := level_le_nextFree (wishes ++ more)
      omega
    · exact ih

/-- The level rises at those who do not get what they ask for, to just above what they get. -/
theorem place_eq (wishes : List ℕ) (wish : ℕ) :
    place (taken wishes) wish =
      if wish ∈ wishes ∨ wish < level wishes then level (wishes ++ [wish]) - 1 else wish := by
  rw [level_concat]
  by_cases hused : wish ∈ taken wishes
  · simp only [place, hused, mem_taken_iff.mp hused, if_true, Nat.add_sub_cancel]
  · simp only [place, hused, mt mem_taken_iff.mpr hused, if_false]

/-- The segment has no more numbers than there are wishes below it and above it. -/
theorem level_le_iff {wishes : List ℕ} {bound : ℕ} (h : ∀ x ∈ wishes, x < bound) :
    level wishes ≤ bound ↔ wishes.length ≤ bound := by
  constructor
  · intro hle
    have hsub : (taken wishes).toFinset ⊆ Finset.range bound := by
      intro x hx
      rw [List.mem_toFinset, mem_taken_iff] at hx
      rw [Finset.mem_range]
      rcases hx with hx | hx
      · exact h x hx
      · omega
    have hcard := Finset.card_le_card hsub
    rwa [List.toFinset_card_of_nodup (nodup_taken wishes), length_taken, Finset.card_range] at hcard
  · intro hle
    exact Nat.find_min' (exists_level wishes) (by omega)

section Ranges

/-- A wish for `count` places from `wish` on. -/
structure Request where
  wish : ℕ
  count : ℕ
  pos : 0 < count

/-- The places from `start` on. -/
structure Range where
  start : ℕ
  count : ℕ
  deriving DecidableEq

/-- The ranges share no number. -/
def Range.Apart (x y : Range) : Prop := x.start + x.count ≤ y.start ∨ y.start + y.count ≤ x.start

instance (x y : Range) : Decidable (x.Apart y) := inferInstanceAs (Decidable (_ ∨ _))

/-- What the requests ask for, in order. -/
def Request.wishes (rs : List Request) : List ℕ := rs.map Request.wish

/-- The ranges of the requests when one place is taken for each, after the wishes `earlier`. -/
def rangesFrom (earlier : List ℕ) : List Request → List Range
  | [] => []
  | r :: rs => ⟨place (taken earlier) r.wish, r.count⟩ :: rangesFrom (earlier ++ [r.wish]) rs

theorem rangesFrom_append (earlier : List ℕ) (rs more : List Request) :
    rangesFrom earlier (rs ++ more) = rangesFrom earlier rs ++
      rangesFrom (earlier ++ Request.wishes rs) more := by
  induction rs generalizing earlier with
  | nil => simp [rangesFrom, Request.wishes]
  | cons r rs ih => simp [rangesFrom, Request.wishes, ih, List.append_assoc]

/-- A range is that of a request after those before it. -/
theorem mem_rangesFrom {rs : List Request} {x : Range} :
    x ∈ rangesFrom [] rs ↔
      ∃ p r q, rs = p ++ r :: q ∧ x = ⟨place (taken (Request.wishes p)) r.wish, r.count⟩ := by
  constructor
  · intro hx
    induction rs using List.reverseRecOn with
    | nil => cases hx
    | append_singleton rs r ih =>
      rw [rangesFrom_append, List.mem_append] at hx
      rcases hx with hx | hx
      · obtain ⟨p, r', q, rfl, heq⟩ := ih hx
        exact ⟨p, r', q ++ [r], by simp, heq⟩
      · exact ⟨rs, r, [], rfl, by simpa [rangesFrom] using hx⟩
  · rintro ⟨p, r, q, rfl, rfl⟩
    rw [rangesFrom_append]
    exact List.mem_append_right _ List.mem_cons_self

theorem map_start_rangesFrom (rs : List Request) :
    ((rangesFrom [] rs).map Range.start).reverse = taken (Request.wishes rs) := by
  induction rs using List.reverseRecOn with
  | nil => rfl
  | append_singleton rs r ih =>
    have hconcat : Request.wishes (rs ++ [r]) = Request.wishes rs ++ [r.wish] :=
      by simp [Request.wishes]
    rw [hconcat, taken_concat, ← ih, rangesFrom_append]
    simp [rangesFrom, ← ih]

theorem mem_taken_iff_start {rs : List Request} {y : ℕ} :
    y ∈ taken (Request.wishes rs) ↔ ∃ x ∈ rangesFrom [] rs, x.start = y := by
  rw [← map_start_rangesFrom, List.mem_reverse, List.mem_map]

theorem count_pos_of_mem {rs : List Request} {x : Range} (hx : x ∈ rangesFrom [] rs) :
    0 < x.count := by
  obtain ⟨_, r, _, _, rfl⟩ := mem_rangesFrom.mp hx
  exact r.pos

/-- Ranges that begin at different places are apart when none begins inside another. -/
theorem pairwise_apart_iff (rs : List Request) :
    (rangesFrom [] rs).Pairwise Range.Apart ↔
      ∀ x ∈ rangesFrom [] rs, ∀ y ∈ taken (Request.wishes rs), x.start < y → x.start +
        x.count ≤ y := by
  have hstarts : (rangesFrom [] rs).Pairwise fun x y => x.start ≠ y.start := by
    have hnodup := nodup_taken (Request.wishes rs)
    rw [← map_start_rangesFrom, List.nodup_reverse] at hnodup
    exact List.pairwise_map.mp hnodup
  constructor
  · intro h x hx y hy hlt
    obtain ⟨z, hz, rfl⟩ := mem_taken_iff_start.mp hy
    have hsymm : Std.Symm Range.Apart := ⟨fun _ _ => Or.symm⟩
    have hne : x ≠ z := by
      rintro rfl
      omega
    rcases h.forall hx hz hne with hle | hle
    · exact hle
    · omega
  · intro h
    refine hstarts.imp_of_mem ?_
    intro x y hx hy hne
    rcases Nat.lt_or_gt_of_ne hne with hlt | hlt
    · exact Or.inl (h x hx _ (mem_taken_iff_start.mpr ⟨y, hy, rfl⟩) hlt)
    · exact Or.inr (h y hy _ (mem_taken_iff_start.mpr ⟨x, hx, rfl⟩) hlt)

/-- The request `r` after `p` keeps its wish and has room there: nobody before it had the wish, it
is not among the numbers that are filled in the end, and no other wish and not the bound is inside
its range. -/
structure KeepsRoom (bound : ℕ) (rs p : List Request) (r : Request) : Prop where
  first : r.wish ∉ Request.wishes p
  level_le : level (Request.wishes rs) ≤ r.wish
  apart : ∀ s ∈ rs, r.wish < s.wish → r.wish + r.count ≤ s.wish
  bounded : r.wish + r.count ≤ bound

/-- The request `r` after `p` is the last one that is moved, and has room above the numbers filled.
-/
structure MovesLast (bound : ℕ) (rs p : List Request) (r : Request) : Prop where
  rises : level (Request.wishes p) < level (Request.wishes rs)
  last : level (Request.wishes (p ++ [r])) = level (Request.wishes rs)
  apart : ∀ s ∈ rs, level (Request.wishes rs) ≤ s.wish → level (Request.wishes rs) - 1 + r.count ≤
  s.wish
  bounded : level (Request.wishes rs) - 1 + r.count ≤ bound

/-- There are as many places as requests, no wish is out of bounds, and a request of several places
has room. -/
structure Fits (bound : ℕ) (rs : List Request) : Prop where
  wish_lt : ∀ r ∈ rs, r.wish < bound
  length_le : rs.length ≤ bound
  room : ∀ p r q, rs = p ++ r :: q → 2 ≤ r.count → KeepsRoom bound rs p r ∨ MovesLast bound rs p r

variable {bound : ℕ} {rs p q : List Request} {r : Request}

theorem Request.wish_mem (h : r ∈ rs) : r.wish ∈ Request.wishes rs := List.mem_map_of_mem h

theorem Request.wishes_append (rs more : List Request) :
    Request.wishes (rs ++ more) = Request.wishes rs ++ Request.wishes more := List.map_append

theorem Request.wishes_concat (rs : List Request) (r : Request) :
    Request.wishes (rs ++ [r]) = Request.wishes rs ++ [r.wish] := Request.wishes_append rs [r]

theorem level_le_of_split (h : rs = p ++ r :: q) :
    level (Request.wishes (p ++ [r])) ≤ level (Request.wishes rs) := by
  have heq : rs = (p ++ [r]) ++ q := by simp [h]
  rw [heq, Request.wishes_append (p ++ [r])]
  exact level_mono _ _

theorem level_le_of_split' (h : rs = p ++ r :: q) :
    level (Request.wishes p) ≤ level (Request.wishes rs) := by
  rw [h, Request.wishes_append]
  exact level_mono _ _

/-- A request that is moved gets the place below the level it leaves. -/
theorem place_of_moved (h : r.wish ∈ Request.wishes p ∨ r.wish < level (Request.wishes p)) :
    place (taken (Request.wishes p)) r.wish = level (Request.wishes (p ++ [r])) - 1 ∧
      level (Request.wishes p) < level (Request.wishes (p ++ [r])) := by
  rw [Request.wishes_concat]
  refine ⟨by rw [place_eq, if_pos h], ?_⟩
  rw [level_concat, if_pos (mem_taken_iff.mpr h)]
  have := level_le_nextFree (Request.wishes p)
  omega

theorem place_of_kept (h : ¬(r.wish ∈ Request.wishes p ∨ r.wish < level (Request.wishes p))) :
    place (taken (Request.wishes p)) r.wish = r.wish ∧
      level (Request.wishes (p ++ [r])) = level (Request.wishes p) := by
  rw [Request.wishes_concat]
  exact ⟨by rw [place_eq, if_neg h], by rw [level_concat, if_neg (mt mem_taken_iff.mp h)]⟩

theorem KeepsRoom.place_eq (h : KeepsRoom bound rs p r) (hsplit : rs = p ++ r :: q) :
    place (taken (Request.wishes p)) r.wish = r.wish := by
  have hlevel := level_le_of_split' hsplit
  have hwish := h.level_le
  refine (place_of_kept ?_).1
  rintro (hmem | hlt)
  · exact h.first hmem
  · omega

theorem MovesLast.place_eq (h : MovesLast bound rs p r) :
    place (taken (Request.wishes p)) r.wish = level (Request.wishes rs) - 1 := by
  by_cases hmoved : r.wish ∈ Request.wishes p ∨ r.wish < level (Request.wishes p)
  · rw [(place_of_moved hmoved).1, h.last]
  · have hlevel := (place_of_kept hmoved).2
    have hrises := h.rises
    rw [← h.last, hlevel] at hrises
    omega

/-- With room, nothing that is taken is inside the range. -/
theorem Fits.apart (h : Fits bound rs) (hsplit : rs = p ++ r :: q) {y : ℕ}
    (hy : y ∈ taken (Request.wishes rs)) (hlt : place (taken (Request.wishes p)) r.wish < y) :
    place (taken (Request.wishes p)) r.wish + r.count ≤ y := by
  by_cases hcount : 2 ≤ r.count
  · rcases h.room p r q hsplit hcount with hroom | hroom
    · rw [hroom.place_eq hsplit] at hlt ⊢
      rcases mem_taken_iff.mp hy with hmem | hmem
      · obtain ⟨s, hs, rfl⟩ := List.mem_map.mp hmem
        exact hroom.apart s hs hlt
      · have := hroom.level_le
        omega
    · rw [hroom.place_eq] at hlt ⊢
      rcases mem_taken_iff.mp hy with hmem | hmem
      · obtain ⟨s, hs, rfl⟩ := List.mem_map.mp hmem
        exact hroom.apart s hs (by omega)
      · omega
  · have := r.pos
    omega

theorem Fits.bounded (h : Fits bound rs) (hsplit : rs = p ++ r :: q) :
    place (taken (Request.wishes p)) r.wish + r.count ≤ bound := by
  by_cases hcount : 2 ≤ r.count
  · rcases h.room p r q hsplit hcount with hroom | hroom
    · rw [hroom.place_eq hsplit]
      exact hroom.bounded
    · rw [hroom.place_eq]
      exact hroom.bounded
  · have hwishes : ∀ x ∈ Request.wishes rs, x < bound := by
      intro x hx
      obtain ⟨s, hs, rfl⟩ := List.mem_map.mp hx
      exact h.wish_lt s hs
    have hlevel : level (Request.wishes rs) ≤ bound :=
      (level_le_iff hwishes).mpr (by simpa [Request.wishes] using h.length_le)
    have htaken : place (taken (Request.wishes p)) r.wish ∈ taken (Request.wishes rs) :=
      mem_taken_iff_start.mpr ⟨_, mem_rangesFrom.mpr ⟨p, r, q, hsplit, rfl⟩, rfl⟩
    rcases mem_taken_iff.mp htaken with hmem | hmem
    · have := hwishes _ hmem
      omega
    · omega

/-- Ranges that stay apart and in bounds leave a request of several places room. -/
theorem room_of_apart (hsplit : rs = p ++ r :: q) (hcount : 2 ≤ r.count)
    (hapart : ∀ y ∈ taken (Request.wishes rs), place (taken (Request.wishes p)) r.wish < y →
      place (taken (Request.wishes p)) r.wish + r.count ≤ y)
    (hbound : place (taken (Request.wishes p)) r.wish + r.count ≤ bound) :
    KeepsRoom bound rs p r ∨ MovesLast bound rs p r := by
  have hwish : r.wish ∈ Request.wishes rs := Request.wish_mem (by simp [hsplit])
  by_cases hmoved : r.wish ∈ Request.wishes p ∨ r.wish < level (Request.wishes p)
  · right
    obtain ⟨hplace, hrises⟩ := place_of_moved hmoved
    have hle := level_le_of_split hsplit
    rw [hplace] at hapart hbound
    -- the number after the place must not be filled any more
    have hlast : level (Request.wishes (p ++ [r])) = level (Request.wishes rs) := by
      by_contra hne
      have := hapart (level (Request.wishes (p ++ [r])))
          (mem_taken_iff.mpr (Or.inr (by omega))) (by omega)
      omega
    rw [hlast] at hapart hbound
    refine ⟨by omega, hlast, ?_, hbound⟩
    intro s hs hle
    exact hapart _ (mem_taken_iff.mpr (Or.inl (Request.wish_mem hs))) (by omega)
  · left
    obtain ⟨hplace, -⟩ := place_of_kept hmoved
    rw [hplace] at hapart hbound
    have hlevel : level (Request.wishes rs) ≤ r.wish := by
      by_contra hlt
      have hne : level (Request.wishes rs) ≠ r.wish + 1 :=
        fun heq => (filled_level (Request.wishes rs)).last_notMem _ heq hwish
      have := hapart (r.wish + 1) (mem_taken_iff.mpr (Or.inr (by omega))) (by omega)
      omega
    refine ⟨fun hmem => hmoved (Or.inl hmem), hlevel, ?_, hbound⟩
    intro s hs hlt
    exact hapart _ (mem_taken_iff.mpr (Or.inl (Request.wish_mem hs))) hlt

/-- The ranges stay apart and below the bound exactly when the requests fit. -/
theorem separate_iff_fits (bound : ℕ) (rs : List Request) :
    ((rangesFrom [] rs).Pairwise Range.Apart ∧ ∀ x ∈ rangesFrom [] rs, x.start + x.count ≤ bound) ↔
      Fits bound rs := by
  rw [pairwise_apart_iff]
  constructor
  · rintro ⟨hapart, hbound⟩
    have htaken : ∀ y ∈ taken (Request.wishes rs), y < bound := by
      intro y hy
      obtain ⟨x, hx, rfl⟩ := mem_taken_iff_start.mp hy
      have := hbound x hx
      have := count_pos_of_mem hx
      omega
    have hwishes : ∀ x ∈ Request.wishes rs, x < bound :=
      fun x hx => htaken x (mem_taken_iff.mpr (Or.inl hx))
    refine ⟨fun r hr => hwishes _ (Request.wish_mem hr), ?_, ?_⟩
    · have hlevel : level (Request.wishes rs) ≤ bound := by
        by_contra hlt
        have := htaken (level (Request.wishes rs) - 1) (mem_taken_iff.mpr (Or.inr (by omega)))
        omega
      simpa [Request.wishes] using (level_le_iff hwishes).mp hlevel
    · intro p r q hsplit hcount
      have hmem := mem_rangesFrom.mpr ⟨p, r, q, hsplit, rfl⟩
      exact room_of_apart hsplit hcount (hapart _ hmem) (hbound _ hmem)
  · intro h
    constructor
    · intro x hx y hy hlt
      obtain ⟨p, r, q, hsplit, rfl⟩ := mem_rangesFrom.mp hx
      exact h.apart hsplit hy hlt
    · intro x hx
      obtain ⟨p, r, q, hsplit, rfl⟩ := mem_rangesFrom.mp hx
      exact h.bounded hsplit

end Ranges

end FirstFree

end Dxmt
