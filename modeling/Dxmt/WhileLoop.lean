import Mathlib.Data.List.Basic
import Mathlib.Logic.Relation

/-!
# Loops that end, and what a search has found

`run` repeats a step until it has none, for a step that descends along a well-founded relation.
`run_spec` is the rule for it: an invariant of the step holds when the loop ends, and then the step
is done.

The rest is for searches of a graph: a set that holds the start and is closed under the edges has
everything that can be reached, and marking what is new makes what is left smaller.
-/

namespace Dxmt

namespace WhileLoop

universe u

variable {σ : Type u} {r : σ → σ → Prop} {step : σ → Option σ}

/-- Repeat `step` until it is `none`. -/
def run (wf : WellFounded r) (hstep : ∀ s s', step s = some s' → r s' s) (s : σ) : σ :=
  match _h : step s with
  | none => s
  | some s' => run wf hstep s'
termination_by wf.wrap s
decreasing_by exact hstep s s' _h

variable (wf : WellFounded r) (hstep : ∀ s s', step s = some s' → r s' s)

theorem run_of_none {s : σ} (h : step s = none) : run wf hstep s = s := by
  rw [run]
  split
  · rfl
  · next s' hs' => exact absurd (h.symm.trans hs') nofun

theorem run_of_some {s s' : σ} (h : step s = some s') : run wf hstep s = run wf hstep s' := by
  conv => lhs; rw [run]
  split
  · next hnone => exact absurd (h.symm.trans hnone) nofun
  · next t ht =>
    cases h.symm.trans ht
    rfl

/-- What holds at the start and is kept by the step holds at the end, where the step is done. -/
theorem run_spec {P : σ → Prop} (hkeep : ∀ s s', P s → step s = some s' → P s') {s : σ} (h : P s) :
    P (run wf hstep s) ∧ step (run wf hstep s) = none := by
  induction s using wf.induction with
  | _ s ih =>
    cases hs : step s with
    | none =>
      rw [run_of_none wf hstep hs]
      exact ⟨h, hs⟩
    | some s' =>
      rw [run_of_some wf hstep hs]
      exact ih s' (hstep s s' hs) (hkeep s s' h hs)

/-- The first number falls, or it stays and the second one falls. -/
def Lower (measure : σ → Nat × Nat) : σ → σ → Prop :=
  InvImage (Prod.Lex (· < ·) (· < ·)) measure

theorem lower_wf (measure : σ → Nat × Nat) : WellFounded (Lower measure) :=
  InvImage.wf measure (Prod.lex Nat.lt_wfRel Nat.lt_wfRel).wf

theorem lower_of_lt {measure : σ → Nat × Nat} {s s' : σ} (h : (measure s').1 < (measure s).1) :
    Lower measure s' s :=
  Prod.lex_def.mpr (.inl h)

theorem lower_of_le {measure : σ → Nat × Nat} {s s' : σ} (hfst : (measure s').1 ≤ (measure s).1)
    (hsnd : (measure s').2 < (measure s).2) : Lower measure s' s := by
  rcases Nat.lt_or_eq_of_le hfst with hlt | heq
  · exact lower_of_lt hlt
  · exact Prod.lex_def.mpr (.inr ⟨heq, hsnd⟩)

end WhileLoop

namespace GraphSearch

universe u

variable {α : Type u} {edge : α → α → Prop}

/-- A set with the start that is closed under the edges has all that is reachable. -/
theorem mem_of_closed {S : α → Prop} {a b : α} (ha : S a) (hclosed : ∀ x y, S x → edge x y → S y)
    (h : Relation.ReflTransGen edge a b) : S b := by
  induction h with
  | refl => exact ha
  | tail _ hedge ih => exact hclosed _ _ ih hedge

/-- The same for what is reachable in at least one step. -/
theorem mem_of_closed_trans {S : α → Prop} {a b : α} (ha : ∀ y, edge a y → S y)
    (hclosed : ∀ x y, S x → edge x y → S y) (h : Relation.TransGen edge a b) : S b := by
  induction h with
  | single hedge => exact ha _ hedge
  | tail _ hedge ih => exact hclosed _ _ ih hedge

/-- A chain among the vertices of `S` is a chain that leaves only vertices of `S` and ends at one.
-/
theorem reflTransGen_within {S : α → Prop} {a b : α} :
    S a ∧ Relation.ReflTransGen (fun x y => edge x y ∧ S y) a b ↔
      Relation.ReflTransGen (fun x y => S x ∧ edge x y) a b ∧ S b := by
  constructor
  · rintro ⟨ha, h⟩
    induction h with
    | refl => exact ⟨.refl, ha⟩
    | tail _ hedge ih => exact ⟨ih.1.tail ⟨ih.2, hedge.1⟩, hedge.2⟩
  · rintro ⟨h, hb⟩
    induction h with
    | refl => exact ⟨hb, .refl⟩
    | tail _ hedge ih =>
      obtain ⟨ha, hchain⟩ := ih hedge.1
      exact ⟨ha, hchain.tail ⟨hedge.2, hb⟩⟩

variable [DecidableEq α]

/-- How many of the candidates are not seen yet. -/
def unseen (candidates seen : List α) : Nat :=
  candidates.countP fun x => x ∉ seen

theorem unseen_le {candidates seen seen' : List α} (h : seen ⊆ seen') :
    unseen candidates seen' ≤ unseen candidates seen := by
  refine List.countP_mono_left fun x _ hx => ?_
  simp only [decide_eq_true_eq] at hx ⊢
  exact fun hmem => hx (h hmem)

/-- A candidate that is seen for the first time leaves fewer. -/
theorem unseen_lt {candidates seen seen' : List α} {x : α} (h : seen ⊆ seen') (hx : x ∈ candidates)
    (hnew : x ∉ seen) (hseen : x ∈ seen') : unseen candidates seen' < unseen candidates seen := by
  induction candidates with
  | nil => cases hx
  | cons y candidates ih =>
    have hle : unseen candidates seen' ≤ unseen candidates seen := unseen_le h
    unfold unseen at hle ih ⊢
    rw [List.countP_cons, List.countP_cons]
    by_cases hy : y = x
    · subst hy
      rw [if_neg (by simpa using hseen), if_pos (by simpa using hnew)]
      exact Nat.lt_succ_of_le hle
    · have hlt := ih ((List.mem_cons.mp hx).resolve_left (Ne.symm hy))
      refine Nat.add_lt_add_of_lt_of_le hlt ?_
      by_cases hmem : y ∈ seen
      · rw [if_neg (by simpa using h hmem)]
        exact Nat.zero_le _
      · rw [if_pos (show decide (y ∉ seen) = true from decide_eq_true hmem)]
        split
        · exact Nat.le_refl _
        · exact Nat.zero_le _

end GraphSearch

end Dxmt
