import Mathlib.Data.List.Perm.Basic
import Dxmt.Encoder

/-!
# The order of the encoders: the loop of `flushCommands`

The loop moves an encoder down the list as long as `checkEncoderRelation` answers `SWAP`, and folds
encoders into each other on the way. Every place of the list carries the work of some encoders of
the original list. Two encoders depend on each other when one waits for a fence that the other
updates, at any stage, or when one is an event.

An encoder that moves down is checked against every place it passes. A resolve that is folded back
into a render pass is checked against that pass only, not against the places between, so it may be
moved in front of an encoder it waits for (`order_lost`). And an encoder that takes over another
gives up its waits for the fences of that other, which is right only if nobody else updates them: a
fence set holds ids modulo 256 (`wait_lost`).

Results: `checkEncoderRelation_checked` is all that one call may do to the fences, the kinds and the
attachments. `Carries` and `StandsBefore` are the invariant of the loop, `Ordered.check` and
`moveDown_ordered` keep it, and `order_preserved` is the statement about a list: `FencesApart` and
`FoldsApart` are conditions on the list itself.
-/

namespace Dxmt

open FenceSet

variable {Draw Blit Val : Type}

/-- Two encoders that must keep their order: one waits for the other, or one is an event. -/
def Depends (a b : Encoder Draw Blit Val) : Prop :=
  (∃ x : Nat, x ∈ a.updates ∧ x ∈ b.waits) ∨ (∃ x : Nat, x ∈ a.waits ∧ x ∈ b.updates) ∨
    a.isEvent = true ∨ b.isEvent = true

theorem Depends.symm {a b : Encoder Draw Blit Val} (h : Depends a b) : Depends b a := by
  rcases h with ⟨x, ha, hb⟩ | ⟨x, ha, hb⟩ | h | h
  · exact Or.inr (Or.inl ⟨x, hb, ha⟩)
  · exact Or.inl ⟨x, hb, ha⟩
  · exact Or.inr (Or.inr (Or.inr h))
  · exact Or.inr (Or.inr (Or.inl h))

theorem hasDataDependency_eq_false {latter former : Encoder Draw Blit Val} :
    hasDataDependency latter former = false ↔
      (∀ x : Nat, x ∈ former.updates → ¬ x ∈ latter.waits) ∧
        ∀ x : Nat, x ∈ latter.updates → ¬ x ∈ former.waits := by
  unfold hasDataDependency
  rw [Bool.or_eq_false_iff, Bool.eq_false_iff, Bool.eq_false_iff, ne_eq, ne_eq,
    intersectedWith_iff, intersectedWith_iff]
  simp only [not_exists, not_and]

/-! ## What one call does to the fences -/

/-- What the merges of a render pass leave as it is: its attachments and how it is laid out. -/
def RenderEncoderData.targets (r : RenderEncoderData Draw Val) :
    List (Option TextureView × Option Nat × Nat) × BitVec 8 × BitVec 8 × Nat :=
  (r.colors.map fun c => (c.attachment, c.bufferAttachment, c.bufferViewId), r.dsvPlanarFlags,
    r.dsvReadonlyFlags, r.renderTargetArrayLength)

namespace Encoder

/-- An encoder with the work of `a` may have become `e`: the two are of one kind, and render passes
on the same attachments, or `a` is a clear or a resolve that was folded into a pass. -/
def Becomes (a : Encoder Draw Blit Val) : Encoder Draw Blit Val → Prop
  | render r =>
    match a with
    | render r₀ => r₀.targets = r.targets
    | clear _ | resolve _ => True
    | _ => False
  | blit _ =>
    match a with
    | blit _ => True
    | _ => False
  | clear _ =>
    match a with
    | clear _ => True
    | _ => False
  | resolve r => a = resolve r
  | _ => True

/-- One encoder may come to carry the work of both: they are blits, or passes on the same
attachments, clears and resolves. -/
def CanJoin : Encoder Draw Blit Val → Encoder Draw Blit Val → Prop
  | render r₀, render r₁ => r₀.targets = r₁.targets
  | render _, clear _ | render _, resolve _ | clear _, render _ | resolve _, render _
  | clear _, clear _ | clear _, resolve _ | resolve _, clear _ | resolve _, resolve _
  | blit _, blit _ => True
  | _, _ => False

/-- A pass or a blit has taken over what may be joined. -/
theorem canJoin_of_becomes {a b e : Encoder Draw Blit Val} (ha : a.Becomes e) (hb : b.Becomes e)
    (he : (∃ r, e = render r) ∨ ∃ c, e = blit c) : a.CanJoin b := by
  rcases he with ⟨r, rfl⟩ | ⟨c, rfl⟩
  · cases a <;> first | exact ha.elim | skip
    all_goals cases b <;> first | exact hb.elim | trivial | exact ha.trans hb.symm
  · cases a <;> first | exact ha.elim | skip
    cases b <;> first | exact hb.elim | trivial

@[simp] theorem mem_updates_render (r : RenderEncoderData Draw Val) (x : Nat) :
    x ∈ (render r : Encoder Draw Blit Val).updates ↔ x ∈ r.fenceUpdateVertex ∨ x ∈ r.fenceUpdate :=
  mem_unionOf _ _ _

@[simp] theorem mem_waits_render (r : RenderEncoderData Draw Val) (x : Nat) :
    x ∈ (render r : Encoder Draw Blit Val).waits ↔ x ∈ r.fenceWait ∨ x ∈ r.fenceWaitVertex :=
  mem_unionOf _ _ _

/-- The same fences, and the same kind as far as the loop looks at it. -/
structure SameFences (e e' : Encoder Draw Blit Val) : Prop where
  null : e'.isNull = e.isNull
  event : e'.isEvent = e.isEvent
  movable : e'.isMovable = e.isMovable
  waits : e'.waits = e.waits
  updates : e'.updates = e.updates
  becomes : ∀ a : Encoder Draw Blit Val, a.Becomes e → a.Becomes e'

theorem SameFences.refl (e : Encoder Draw Blit Val) : SameFences e e :=
  ⟨rfl, rfl, rfl, rfl, rfl, fun _ h => h⟩

theorem becomes_render {r r' : RenderEncoderData Draw Val} (ht : r'.targets = r.targets)
    {a : Encoder Draw Blit Val} (h : a.Becomes (render r)) : a.Becomes (render r') := by
  cases a <;> first | exact h | exact Eq.trans h ht.symm

theorem sameFences_render {r r' : RenderEncoderData Draw Val}
    (hr : r'.toEncoderData = r.toEncoderData) (hrw : r'.fenceWaitVertex = r.fenceWaitVertex)
    (hru : r'.fenceUpdateVertex = r.fenceUpdateVertex) (ht : r'.targets = r.targets) :
    SameFences (render r : Encoder Draw Blit Val) (render r') := by
  refine ⟨rfl, rfl, rfl, ?_, ?_, fun _ => becomes_render ht⟩
  · show r'.toEncoderData.fenceWait.unionOf r'.fenceWaitVertex = _
    rw [hr, hrw]
    rfl
  · show r'.fenceUpdateVertex.unionOf r'.toEncoderData.fenceUpdate = _
    rw [hr, hru]
    rfl

/-- `e'` is `e` with the work of `gone`: it waits for what either waits for, but for the fences that
`gone` updates. -/
structure Absorbs (gone e e' : Encoder Draw Blit Val) : Prop where
  null : e'.isNull = false
  event : gone.isEvent = false ∧ e.isEvent = false
  movable : e'.isMovable = true ∧ e.isMovable = true
  updates : ∀ x : Nat, x ∈ e'.updates ↔ x ∈ gone.updates ∨ x ∈ e.updates
  waits : ∀ x : Nat, x ∈ gone.waits ∨ x ∈ e.waits → x ∈ e'.waits ∨ x ∈ gone.updates
  becomes : ∀ a : Encoder Draw Blit Val, a.Becomes gone ∨ a.Becomes e → a.Becomes e'
  joined : (∃ r, e' = render r) ∨ ∃ c, e' = blit c

end Encoder

open Encoder

/-- A colour attachment that changes its actions keeps its view. -/
theorem map_modify_eq {α β : Type} (f : α → β) (g : α → α) (h : ∀ a, f (g a) = f a) (xs : List α)
    (i : Nat) : (xs.modify i g).map f = xs.map f := by
  induction xs generalizing i with
  | nil => cases i <;> rfl
  | cons x xs ih =>
    cases i with
    | zero => exact congrArg (· :: xs.map f) (h x)
    | succ i => exact congrArg (f x :: ·) (ih i)

theorem foldClearDepthStencil_fences (clear : ClearEncoderData Val)
    (render : RenderEncoderData Draw Val) :
    (foldClearDepthStencil clear render).1.toEncoderData = clear.toEncoderData ∧
      (foldClearDepthStencil clear render).2.toEncoderData = render.toEncoderData ∧
      (foldClearDepthStencil clear render).2.fenceWaitVertex = render.fenceWaitVertex ∧
      (foldClearDepthStencil clear render).2.fenceUpdateVertex = render.fenceUpdateVertex ∧
      (foldClearDepthStencil clear render).2.targets = render.targets := by
  unfold foldClearDepthStencil
  by_cases hd : isClearDepthSignatureMatched clear render = true
  · simp only [if_pos hd]
    split <;> exact ⟨rfl, rfl, rfl, rfl, rfl⟩
  · simp only [if_neg hd]
    split <;> exact ⟨rfl, rfl, rfl, rfl, rfl⟩

theorem discardCleared_fences (render : RenderEncoderData Draw Val) (clear : ClearEncoderData Val) :
    (discardCleared render clear).toEncoderData = render.toEncoderData ∧
      (discardCleared render clear).fenceWaitVertex = render.fenceWaitVertex ∧
      (discardCleared render clear).fenceUpdateVertex = render.fenceUpdateVertex ∧
      (discardCleared render clear).colors = render.colors ∧
      (discardCleared render clear).targets = render.targets := by
  unfold discardCleared
  dsimp only
  split <;> split <;> exact ⟨rfl, rfl, rfl, rfl, rfl⟩

/-- A render encoder that takes over a clear or a resolve. -/
theorem absorbs_takeFences {gone : Encoder Draw Blit Val} {r : RenderEncoderData Draw Val}
    (r' : RenderEncoderData Draw Val) (base : EncoderData) (hg : gone.isEvent = false)
    (hgone : (∃ c, gone = .clear c) ∨ ∃ r, gone = .resolve r) (hu : gone.updates = base.fenceUpdate)
    (hw : gone.waits = base.fenceWait) (hr : r'.toEncoderData = r.toEncoderData)
    (hrw : r'.fenceWaitVertex = r.fenceWaitVertex)
    (hru : r'.fenceUpdateVertex = r.fenceUpdateVertex) (ht : r'.targets = r.targets) :
    Absorbs gone (.render r) (.render (takeFences r' base)) := by
  have hrfw : r'.fenceWait = r.fenceWait := congrArg EncoderData.fenceWait hr
  have hrfu : r'.fenceUpdate = r.fenceUpdate := congrArg EncoderData.fenceUpdate hr
  refine ⟨rfl, ⟨hg, rfl⟩, ⟨rfl, rfl⟩, fun x => ?_, fun x hx => ?_, fun a ha => ?_,
    Or.inl ⟨_, rfl⟩⟩
  · rw [mem_updates_render, mem_updates_render, hu]
    show x ∈ r'.fenceUpdateVertex ∨ x ∈ r'.fenceUpdate.merge base.fenceUpdate ↔ _
    rw [mem_merge, hrfu, hru]
    tauto
  · rw [mem_waits_render] at hx ⊢
    show (x ∈ (r'.fenceWait.merge base.fenceWait).subtract base.fenceUpdate ∨
      x ∈ r'.fenceWaitVertex) ∨ _
    rw [mem_subtract, mem_merge, hrfw, hrw, hu]
    rw [hw] at hx
    tauto
  · rcases ha with ha | ha
    · rcases hgone with ⟨c, rfl⟩ | ⟨resolve, rfl⟩
      · cases a <;> trivial
      · have ha' : a = .resolve resolve := ha
        rw [ha']
        trivial
    · exact becomes_render (show (takeFences r' base).targets = r.targets from ht) ha

/-- A merged pass has the attachments of both. -/
theorem targets_mergeRender {r0 r1 : RenderEncoderData Draw Val}
    (hmerge : canMergeRender r0 r1 = true) :
    r0.targets = r1.targets ∧ (mergeRender r0 r1).targets = r1.targets := by
  unfold canMergeRender isEncoderSignatureMatched at hmerge
  simp only [Bool.and_eq_true, beq_iff_eq] at hmerge
  obtain ⟨⟨⟨⟨⟨⟨⟨hlen, hplanar⟩, hreadonly⟩, harray⟩, -⟩, -⟩, hcolors⟩, -⟩ := hmerge
  unfold RenderEncoderData.targets mergeRender
  rw [hplanar, hreadonly, harray]
  suffices hmap : ∀ xs ys : List (ColorAttachment Val), xs.length = ys.length →
      (List.zipWith isColorSignatureMatched xs ys).all id = true →
      xs.map (fun c => (c.attachment, c.bufferAttachment, c.bufferViewId)) =
          ys.map (fun c => (c.attachment, c.bufferAttachment, c.bufferViewId)) ∧
        (List.zipWith (fun a0 a1 : ColorAttachment Val =>
            { a1 with loadAction := a0.loadAction, clearColor := a0.clearColor }) xs ys).map
            (fun c => (c.attachment, c.bufferAttachment, c.bufferViewId)) =
          ys.map (fun c => (c.attachment, c.bufferAttachment, c.bufferViewId)) by
    obtain ⟨h0, h1⟩ := hmap _ _ hlen hcolors
    exact ⟨by rw [h0], by rw [← h1]⟩
  intro xs
  induction xs with
  | nil =>
    intro ys hlen _
    cases ys with
    | nil => exact ⟨rfl, rfl⟩
    | cons y ys => cases hlen
  | cons x xs ih =>
    intro ys hlen hall
    cases ys with
    | nil => cases hlen
    | cons y ys =>
      rw [List.zipWith_cons_cons, List.all_cons, Bool.and_eq_true] at hall
      obtain ⟨h0, h1⟩ := ih ys (Nat.succ.inj hlen) hall.2
      have hhead : isColorSignatureMatched x y = true := hall.1
      unfold isColorSignatureMatched at hhead
      simp only [Bool.and_eq_true, beq_iff_eq] at hhead
      rw [List.zipWith_cons_cons, List.map_cons, List.map_cons, List.map_cons, h0, h1,
        hhead.1.1.1.1, hhead.1.1.1.2, hhead.1.1.2]
      exact ⟨rfl, rfl⟩

theorem absorbs_mergeRender {r0 r1 : RenderEncoderData Draw Val}
    (hmerge : canMergeRender r0 r1 = true) :
    Absorbs (.render r0 : Encoder Draw Blit Val) (.render r1) (.render (mergeRender r0 r1)) := by
  obtain ⟨ht0, ht1⟩ := targets_mergeRender hmerge
  refine ⟨rfl, ⟨rfl, rfl⟩, ⟨rfl, rfl⟩, fun x => ?_, fun x hx => ?_, fun a ha => ?_,
    Or.inl ⟨_, rfl⟩⟩
  · rw [mem_updates_render, mem_updates_render, mem_updates_render]
    show x ∈ r1.fenceUpdateVertex.merge r0.fenceUpdateVertex ∨
      x ∈ r1.fenceUpdate.merge r0.fenceUpdate ↔ _
    rw [mem_merge, mem_merge]
    tauto
  · rw [mem_waits_render, mem_waits_render] at hx
    rw [mem_waits_render, mem_updates_render]
    show (x ∈ ((r1.fenceWait.merge r0.fenceWait).subtract r0.fenceUpdate).subtract
        r0.fenceUpdateVertex ∨
      x ∈ (r1.fenceWaitVertex.merge r0.fenceWaitVertex).subtract r0.fenceUpdateVertex) ∨ _
    rw [mem_subtract, mem_subtract, mem_merge, mem_subtract, mem_merge]
    tauto
  · rcases ha with ha | ha
    · exact becomes_render (ht1.trans ht0.symm) ha
    · exact becomes_render ht1 ha

theorem absorbs_mergeBlit (f l : BlitEncoderData Blit) :
    Absorbs (.blit f : Encoder Draw Blit Val) (.blit l) (.blit (mergeBlit f l)) := by
  refine ⟨rfl, ⟨rfl, rfl⟩, ⟨rfl, rfl⟩, fun x => ?_, fun x hx => ?_, fun a ha => ha.elim id id,
    Or.inr ⟨_, rfl⟩⟩
  · show x ∈ l.fenceUpdate.merge f.fenceUpdate ↔ x ∈ f.fenceUpdate ∨ x ∈ l.fenceUpdate
    rw [mem_merge]
    exact or_comm
  · show x ∈ (l.fenceWait.merge f.fenceWait).subtract f.fenceUpdate ∨ x ∈ f.fenceUpdate
    have hx' : x ∈ f.fenceWait ∨ x ∈ l.fenceWait := hx
    rw [mem_subtract, mem_merge]
    tauto

/-! ## Resolves -/

namespace Encoder

/-- The second encoder is a resolve of an attachment of the first, which stores it. -/
def Folds (formats : ViewFormats) : Encoder Draw Blit Val → Encoder Draw Blit Val → Prop
  | render r, resolve l => (isResolveSignatureMatched formats r l).isSome = true
  | _, _ => False

/-- What can be folded into `e'` could be folded into `e`. -/
def FoldsNoMore (formats : ViewFormats) (e e' : Encoder Draw Blit Val) : Prop :=
  ∀ l : Encoder Draw Blit Val, e'.Folds formats l → e.Folds formats l

theorem Folds.render {formats : ViewFormats} {e l : Encoder Draw Blit Val}
    (h : e.Folds formats l) : ∃ pass, e = .render pass := by
  cases e <;> first | exact h.elim | exact ⟨_, rfl⟩

theorem Folds.resolve {formats : ViewFormats} {e l : Encoder Draw Blit Val}
    (h : e.Folds formats l) : ∃ r, l = .resolve r := by
  obtain ⟨pass, rfl⟩ := h.render
  cases l <;> first | exact h.elim | exact ⟨_, rfl⟩

end Encoder

theorem isResolveSignatureMatched_isSome (formats : ViewFormats)
    (render : RenderEncoderData Draw Val) (resolve : ResolveEncoderData) :
    (isResolveSignatureMatched formats render resolve).isSome = true ↔
      ∃ color ∈ render.colors, (resolveTarget formats resolve color).isSome = true := by
  unfold isResolveSignatureMatched
  cases hfind : render.colors.findIdx? fun color =>
      (resolveTarget formats resolve color).isSome with
  | none =>
    rw [List.findIdx?_eq_none_iff] at hfind
    refine iff_of_false (by simp) ?_
    rintro ⟨color, hmem, hsome⟩
    exact absurd (hsome.symm.trans (hfind color hmem)) (by decide)
  | some i =>
    obtain ⟨hi, hsome, -⟩ := List.findIdx?_eq_some_iff_getElem.mp hfind
    refine iff_of_true ?_ ⟨_, List.getElem_mem hi, hsome⟩
    rw [Option.bind_some, Option.isSome_map, List.getElem?_eq_getElem hi]
    exact hsome

theorem mem_modify {α : Type} {g : α → α} {xs : List α} {i : Nat} {x : α}
    (h : x ∈ xs.modify i g) : x ∈ xs ∨ ∃ y, x = g y := by
  obtain ⟨n, hn⟩ := List.getElem?_of_mem h
  rw [List.getElem?_modify] at hn
  cases hx : xs[n]? with
  | none =>
    rw [hx] at hn
    cases hn
  | some y =>
    rw [hx] at hn
    by_cases hi : i = n
    · exact Or.inr ⟨y, by simpa [hi] using hn.symm⟩
    · have hyx : y = x := by simpa [hi] using hn
      exact Or.inl (hyx ▸ List.mem_of_getElem? hx)

/-- An attachment that is resolved already is not resolved again. -/
theorem foldsNoMore_foldResolve (formats : ViewFormats) (render : RenderEncoderData Draw Val)
    (i : Nat) (dst : TextureView) (base : EncoderData) :
    FoldsNoMore formats (.render render : Encoder Draw Blit Val)
      (.render (takeFences (foldResolve render i dst) base)) := by
  intro l h
  cases l with
  | resolve resolve =>
    refine (isResolveSignatureMatched_isSome formats render resolve).mpr ?_
    obtain ⟨color, hmem, hsome⟩ :=
      (isResolveSignatureMatched_isSome formats _ resolve).mp h
    rcases mem_modify hmem with hmem | ⟨old, rfl⟩
    · exact ⟨color, hmem, hsome⟩
    · refine absurd hsome ?_
      unfold resolveTarget
      cases old.attachment with
      | none => exact Bool.false_ne_true
      | some view =>
        dsimp only
        rw [if_pos (Or.inl (by decide))]
        exact Bool.false_ne_true
  | _ => exact h.elim

/-- What `checkEncoderRelation` may have done: nothing to the fences, and `swap` only without a
dependency; or one of the two encoders was absorbed by the other, the later one only as a resolve.
-/
inductive Checked (formats : ViewFormats) (former latter : Encoder Draw Blit Val) :
    EncoderListOp × Encoder Draw Blit Val × Encoder Draw Blit Val → Prop where
  | kept (op : EncoderListOp) (f l : Encoder Draw Blit Val) (hf : SameFences former f)
      (hl : SameFences latter l) (hfold : FoldsNoMore formats former f)
      (hswap : op = .swap → latter.isEvent = false ∧ hasDataDependency latter former = false) :
      Checked formats former latter (op, f, l)
  | forward (op : EncoderListOp) (l : Encoder Draw Blit Val) (h : Absorbs former latter l) :
      Checked formats former latter (op, .null, l)
  | backward (f : Encoder Draw Blit Val) (h : Absorbs latter former f)
      (hnow : former.Folds formats latter) (hfold : FoldsNoMore formats former f) :
      Checked formats former latter (.swap, f, .null)

/-- Nothing was done but for actions of attachments. -/
theorem Checked.dependency {formats : ViewFormats} {former latter f l : Encoder Draw Blit Val}
    (hf : SameFences former f) (hl : SameFences latter l) (hfold : FoldsNoMore formats former f)
    (he : latter.isEvent = false) : Checked formats former latter (dependencyOp f l, f, l) := by
  refine .kept _ f l hf hl hfold fun hop => ⟨he, ?_⟩
  unfold dependencyOp at hop
  split at hop
  · cases hop
  · next hdep =>
    rw [Bool.not_eq_true] at hdep
    unfold hasDataDependency at hdep ⊢
    rw [hf.waits, hf.updates, hl.waits, hl.updates] at hdep
    exact hdep

section Check

variable (formats : ViewFormats)

theorem checked_clearRender (clear : ClearEncoderData Val) (render : RenderEncoderData Draw Val) :
    Checked formats (.clear clear : Encoder Draw Blit Val) (.render render)
      (checkClearRender clear render) := by
  obtain ⟨hc, hr, hrw, hru, ht⟩ := foldClearDepthStencil_fences clear render
  unfold checkClearRender
  by_cases hlen : render.renderTargetArrayLength ≠ clear.arrayLength
  · rw [if_pos hlen]
    exact .dependency (.refl _) (.refl _) (fun _ => id) rfl
  rw [if_neg hlen]
  by_cases hdsv : clear.clearDsv ≠ 0
  · rw [if_pos hdsv]
    dsimp only
    split
    · exact .forward _ _
        (absorbs_takeFences _ _ rfl (Or.inl ⟨_, rfl⟩) rfl rfl hr hrw hru ht)
    · exact .dependency ⟨rfl, rfl, rfl, congrArg EncoderData.fenceWait hc,
        congrArg EncoderData.fenceUpdate hc, fun _ => id⟩ (sameFences_render hr hrw hru ht)
        (fun _ h => h.elim) rfl
  · rw [if_neg hdsv]
    split
    · refine .forward _ _
        (absorbs_takeFences _ _ rfl (Or.inl ⟨_, rfl⟩) rfl rfl rfl rfl rfl ?_)
      unfold RenderEncoderData.targets
      rw [map_modify_eq]
      intro a
      unfold clearColorSlot
      split <;> rfl
    · exact .dependency (.refl _) (.refl _) (fun _ => id) rfl

theorem checked_renderResolve (render : RenderEncoderData Draw Val) (resolve : ResolveEncoderData) :
    Checked formats (.render render : Encoder Draw Blit Val) (.resolve resolve)
      (checkRenderResolve formats render resolve) := by
  unfold checkRenderResolve
  split
  · next i dst hmatched =>
    refine .backward _ (absorbs_takeFences _ _ rfl (Or.inr ⟨_, rfl⟩) rfl rfl rfl rfl rfl ?_) ?_
      (foldsNoMore_foldResolve formats render i dst _)
    · unfold RenderEncoderData.targets foldResolve
      rw [map_modify_eq]
      exact fun _ => rfl
    · exact Option.isSome_of_eq_some hmatched
  · exact .dependency (.refl _) (.refl _) (fun _ => id) rfl

theorem checked_renderRender (r0 r1 : RenderEncoderData Draw Val) :
    Checked formats (.render r0 : Encoder Draw Blit Val) (.render r1)
      (checkRenderRender r0 r1) := by
  unfold checkRenderRender
  split
  · next hmerge => exact .forward _ _ (absorbs_mergeRender hmerge)
  · exact .dependency (.refl _) (.refl _) (fun _ => id) rfl

theorem checked_renderClear (render : RenderEncoderData Draw Val) (clear : ClearEncoderData Val) :
    Checked formats (.render render : Encoder Draw Blit Val) (.clear clear)
      (dependencyOp (.render (discardCleared render clear) : Encoder Draw Blit Val) (.clear clear),
        .render (discardCleared render clear), .clear clear) := by
  obtain ⟨hr, hrw, hru, hcolors, ht⟩ := discardCleared_fences render clear
  refine .dependency (sameFences_render hr hrw hru ht) (.refl _) (fun l h => ?_) rfl
  cases l with
  | resolve resolve =>
    refine (isResolveSignatureMatched_isSome formats _ resolve).mpr ?_
    rw [← hcolors]
    exact (isResolveSignatureMatched_isSome formats _ resolve).mp h
  | _ => exact h.elim

theorem checked_blitBlit (f l : BlitEncoderData Blit) :
    Checked formats (.blit f : Encoder Draw Blit Val) (.blit l)
      (if hasDataDependency (.blit l : Encoder Draw Blit Val) (.blit f) then
        (.synchronize, .blit f, .blit l) else (.swap, .null, .blit (mergeBlit f l))) := by
  split
  · exact .kept _ _ _ (.refl _) (.refl _) (fun _ => id) fun hop => nomatch hop
  · exact .forward _ _ (absorbs_mergeBlit f l)

/-- **One call**, for the encoders that the loop calls it on. -/
theorem checkEncoderRelation_checked {former latter : Encoder Draw Blit Val}
    (hf : former.isMovable = true) (hl : latter.isNull = false) :
    Checked formats former latter (checkEncoderRelation formats former latter) := by
  have hfn : former.isNull = false := by cases former <;> first | rfl | cases hf
  have hfe : former.isEvent = false := by cases former <;> first | rfl | cases hf
  unfold checkEncoderRelation
  rw [hfn, hl, hfe, Bool.false_or, Bool.false_or, if_neg Bool.false_ne_true]
  by_cases he : latter.isEvent = true
  · rw [if_pos he]
    exact .kept _ _ _ (.refl _) (.refl _) (fun _ => id) fun hop => nomatch hop
  rw [if_neg he]
  rw [Bool.not_eq_true] at he
  split
  · exact checked_blitBlit _ _ _
  · exact checked_clearRender _ _ _
  · exact checked_renderClear _ _ _
  · exact checked_renderResolve _ _ _
  · exact checked_renderRender _ _ _
  · exact .dependency (.refl _) (.refl _) (fun _ => id) he

end Check


/-! ## What a place carries -/

section Order

variable (orig : Nat → Encoder Draw Blit Val)

/-- A place against the encoders whose work it carries. A wait is given up only where another
encoder has joined the place, and only for a fence of the encoder itself or of one that joined it.
-/
structure Carries (p : Place Draw Blit Val) : Prop where
  empty : p.encoder.isNull = true ↔ p.carried = []
  updates : ∀ x : Nat, x ∈ p.encoder.updates ↔ ∃ b ∈ p.carried, x ∈ (orig b).updates
  waits : ∀ b ∈ p.carried, ∀ x : Nat, x ∈ (orig b).waits →
    x ∈ p.encoder.waits ∨
      ∃ c ∈ p.carried, x ∈ (orig c).updates ∧ ∃ d ∈ p.carried, d ≠ b ∧ (c = b ∨ c = d)
  event : ∀ b ∈ p.carried, (orig b).isEvent = true → p.encoder.isEvent = true
  becomes : ∀ b ∈ p.carried, (orig b).Becomes p.encoder
  joined : ∀ a ∈ p.carried, ∀ b ∈ p.carried, a ≠ b → (orig a).CanJoin (orig b)

/-- `p` may stand before `q`: nothing that `q` carries has to come before something that `p`
carries, and behind an encoder that is not moved stands work that was behind it in the list. -/
structure StandsBefore (p q : Place Draw Blit Val) : Prop where
  apart : ∀ a ∈ p.carried, ∀ b ∈ q.carried, a ≠ b ∧ (b < a → ¬ Depends (orig a) (orig b))
  later : q.carried ≠ [] → p.encoder.isMovable = false →
    ∃ w ∈ q.carried, ∀ a ∈ p.carried, a < w

/-- Nothing that the two carry has an order. -/
def Free (p q : Place Draw Blit Val) : Prop :=
  ∀ a ∈ p.carried, ∀ b ∈ q.carried, ¬ Depends (orig a) (orig b)

/-- Where an encoder waits for a fence that two encoders update, it is joined neither with one of
them nor, when it is one of them itself, with anything. -/
def FencesApart : Prop :=
  ∀ a b c, a ≠ b → a ≠ c → ∀ x : Nat, x ∈ (orig a).updates → x ∈ (orig c).updates →
    x ∈ (orig b).waits → ∀ d, d ≠ b → (c = b ∨ c = d) → ¬ (orig b).CanJoin (orig d)

/-- Where a resolve could be folded into a render pass across an encoder it depends on, the pass
meets another encoder before the resolve that it depends on itself, and that one stays before the
resolve: it depends on the resolve too, or nothing behind the resolve can join it. -/
def FoldsApart (formats : ViewFormats) (n : Nat) : Prop :=
  ∀ r < n, ∀ j < r, (orig j).Folds formats (orig r) →
    (∃ y < r, j < y ∧ Depends (orig y) (orig r)) →
    ∃ z < r, j < z ∧ (∀ l, orig z ≠ .resolve l) ∧ Depends (orig j) (orig z) ∧
      (Depends (orig z) (orig r) ∨ ∀ w < n, r < w → ¬ (orig z).CanJoin (orig w))

variable {orig} {p p' q q' gone : Place Draw Blit Val}

theorem Carries.congr (h : Carries orig p) (hf : SameFences p.encoder p'.encoder)
    (hc : p'.carried = p.carried) : Carries orig p' := by
  obtain ⟨hempty, hupd, hwait, hevent, hbecomes, hjoined⟩ := h
  refine ⟨?_, ?_, ?_, ?_, ?_, ?_⟩ <;> rw [hc]
  · rw [hf.null]
    exact hempty
  · rw [hf.updates]
    exact hupd
  · rw [hf.waits]
    exact hwait
  · rw [hf.event]
    exact hevent
  · exact fun b hb => hf.becomes _ (hbecomes b hb)
  · exact hjoined

theorem carries_null : Carries orig (⟨.null, []⟩ : Place Draw Blit Val) := by
  refine ⟨iff_of_true rfl rfl, fun x => ?_, fun b hb => absurd hb List.not_mem_nil,
    fun b hb => absurd hb List.not_mem_nil, fun b hb => absurd hb List.not_mem_nil,
    fun b hb => absurd hb List.not_mem_nil⟩
  exact ⟨fun hx => absurd hx (not_mem_empty x), fun ⟨b, hb, _⟩ => absurd hb List.not_mem_nil⟩

/-- What `p` and `gone` carry is in one place now. -/
theorem Carries.absorbs (hg : Carries orig gone) (hp : Carries orig p)
    (hdisj : ∀ a ∈ gone.carried, ∀ b ∈ p.carried, a ≠ b) (hgne : gone.encoder.isNull = false)
    (hpne : p.encoder.isNull = false) (h : Absorbs gone.encoder p.encoder p'.encoder)
    (hc : ∀ b, b ∈ p'.carried ↔ b ∈ gone.carried ∨ b ∈ p.carried) : Carries orig p' := by
  obtain ⟨g₀, hg₀⟩ : ∃ g₀, g₀ ∈ gone.carried := by
    refine List.exists_mem_of_ne_nil _ fun hnil => ?_
    exact absurd ((hg.empty.mpr hnil).symm.trans hgne) (by decide)
  obtain ⟨p₀, hp₀⟩ : ∃ p₀, p₀ ∈ p.carried := by
    refine List.exists_mem_of_ne_nil _ fun hnil => ?_
    exact absurd ((hp.empty.mpr hnil).symm.trans hpne) (by decide)
  have hupd : ∀ x : Nat, x ∈ p'.encoder.updates ↔ ∃ b ∈ p'.carried, x ∈ (orig b).updates := by
    intro x
    rw [h.updates, hg.updates, hp.updates]
    constructor
    · rintro (⟨b, hb, hx⟩ | ⟨b, hb, hx⟩)
      · exact ⟨b, (hc b).mpr (Or.inl hb), hx⟩
      · exact ⟨b, (hc b).mpr (Or.inr hb), hx⟩
    · rintro ⟨b, hb, hx⟩
      rcases (hc b).mp hb with hb | hb
      · exact Or.inl ⟨b, hb, hx⟩
      · exact Or.inr ⟨b, hb, hx⟩
  have hbecomes : ∀ b ∈ p'.carried, (orig b).Becomes p'.encoder := by
    intro b hb
    rcases (hc b).mp hb with hb | hb
    · exact h.becomes _ (Or.inl (hg.becomes b hb))
    · exact h.becomes _ (Or.inr (hp.becomes b hb))
  refine ⟨iff_of_false ?_ fun hnil => ?_, hupd, fun b hb x hx => ?_, fun b hb he => ?_, hbecomes,
    fun a ha b hb _ => canJoin_of_becomes (hbecomes a ha) (hbecomes b hb) h.joined⟩
  · rw [h.null]
    exact Bool.false_ne_true
  · have hmem := (hc p₀).mpr (Or.inr hp₀)
    rw [hnil] at hmem
    exact absurd hmem List.not_mem_nil
  · -- what a part had given up stays given up; the merge gives up the fences of `gone` alone
    have hold : (x ∈ gone.encoder.waits ∨ x ∈ p.encoder.waits) ∨
        ∃ c ∈ p'.carried, x ∈ (orig c).updates ∧ ∃ d ∈ p'.carried, d ≠ b ∧ (c = b ∨ c = d) := by
      rcases (hc b).mp hb with hb | hb
      · refine (hg.waits b hb x hx).imp Or.inl ?_
        rintro ⟨c, hcm, hu, d, hd, hne⟩
        exact ⟨c, (hc c).mpr (Or.inl hcm), hu, d, (hc d).mpr (Or.inl hd), hne⟩
      · refine (hp.waits b hb x hx).imp Or.inr ?_
        rintro ⟨c, hcm, hu, d, hd, hne⟩
        exact ⟨c, (hc c).mpr (Or.inr hcm), hu, d, (hc d).mpr (Or.inr hd), hne⟩
    rcases hold with hw | hlost
    · refine (h.waits x hw).imp_right fun hu => ?_
      obtain ⟨c, hcg, hcu⟩ := (hg.updates x).mp hu
      by_cases hcb : c = b
      · subst hcb
        exact ⟨c, hb, hcu, p₀, (hc p₀).mpr (Or.inr hp₀), (hdisj c hcg p₀ hp₀).symm, Or.inl rfl⟩
      · exact ⟨c, (hc c).mpr (Or.inl hcg), hcu, c, (hc c).mpr (Or.inl hcg), hcb, Or.inr rfl⟩
    · exact Or.inr hlost
  · rcases (hc b).mp hb with hb | hb
    · exact absurd ((hg.event b hb he).symm.trans h.event.1) Bool.noConfusion
    · exact absurd ((hp.event b hb he).symm.trans h.event.2) Bool.noConfusion

/-- A wait for another encoder's fence is given up only if the place carries that encoder. -/
theorem Carries.waits_of_apart (hd : FencesApart orig) (hq : Carries orig q) {a b : Nat}
    (hb : b ∈ q.carried) (ha : a ∉ q.carried) {x : Nat} (hu : x ∈ (orig a).updates)
    (hw : x ∈ (orig b).waits) : x ∈ q.encoder.waits := by
  refine (hq.waits b hb x hw).elim id ?_
  rintro ⟨c, hc, hcu, d, hdm, hne, hcd⟩
  refine absurd (hq.joined b hb d hdm hne.symm) (hd a b c ?_ ?_ x hu hcu hw d hne hcd)
  · exact fun he => ha (he ▸ hb)
  · exact fun he => ha (he ▸ hc)

/-- Without a dependency between the places there is none between what they carry. -/
theorem free_of_swap (hd : FencesApart orig) (hp : Carries orig p) (hq : Carries orig q)
    (hb : StandsBefore orig p q) (hpe : p.encoder.isEvent = false) (hqe : q.encoder.isEvent = false)
    (h : hasDataDependency q.encoder p.encoder = false) : Free orig p q := by
  rw [hasDataDependency_eq_false] at h
  intro a ha b hb' hdep
  have hnq : a ∉ q.carried := fun haq => (hb.apart a ha a haq).1 rfl
  have hnp : b ∉ p.carried := fun hbp => (hb.apart b hbp b hb').1 rfl
  rcases hdep with ⟨x, hu, hw⟩ | ⟨x, hw, hu⟩ | he | he
  · exact h.1 x ((hp.updates x).mpr ⟨a, ha, hu⟩) (hq.waits_of_apart hd hb' hnq hu hw)
  · exact h.2 x ((hq.updates x).mpr ⟨b, hb', hu⟩) (hp.waits_of_apart hd ha hnp hu hw)
  · exact absurd ((hp.event a ha he).symm.trans hpe) Bool.noConfusion
  · exact absurd ((hq.event b hb' he).symm.trans hqe) Bool.noConfusion

/-! ## One call on two places -/

/-- `Checked`, with what the places carry. -/
inductive Place.Checked (formats : ViewFormats) (f l : Place Draw Blit Val) :
    EncoderListOp × Place Draw Blit Val × Place Draw Blit Val → Prop where
  | kept (op : EncoderListOp) (f' l' : Encoder Draw Blit Val) (hf : SameFences f.encoder f')
      (hl : SameFences l.encoder l') (hfold : FoldsNoMore formats f.encoder f')
      (hswap : op = .swap → l.encoder.isEvent = false ∧
        hasDataDependency l.encoder f.encoder = false) :
      Checked formats f l (op, ⟨f', f.carried⟩, ⟨l', l.carried⟩)
  | forward (op : EncoderListOp) (l' : Encoder Draw Blit Val)
      (h : Absorbs f.encoder l.encoder l') :
      Checked formats f l (op, ⟨.null, []⟩, ⟨l', f.carried ++ l.carried⟩)
  | backward (f' : Encoder Draw Blit Val) (h : Absorbs l.encoder f.encoder f')
      (hnow : f.encoder.Folds formats l.encoder) (hfold : FoldsNoMore formats f.encoder f') :
      Checked formats f l (.swap, ⟨f', f.carried ++ l.carried⟩, ⟨.null, []⟩)

theorem isNull_of_isMovable {e : Encoder Draw Blit Val} (h : e.isMovable = true) :
    e.isNull = false := by
  cases e <;> first | rfl | cases h

theorem Place.check_checked (formats : ViewFormats) {f l : Place Draw Blit Val}
    (hf : f.encoder.isMovable = true) (hl : l.encoder.isNull = false) :
    Place.Checked formats f l (f.check formats l) := by
  have h := checkEncoderRelation_checked formats hf hl
  unfold Place.check
  generalize checkEncoderRelation formats f.encoder l.encoder = r at h
  cases h with
  | kept op f' l' hsf hsl hfold hswap =>
    dsimp only
    rw [hsf.null, isNull_of_isMovable hf, if_neg Bool.false_ne_true, hsl.null, hl,
      if_neg Bool.false_ne_true]
    exact .kept op f' l' hsf hsl hfold hswap
  | forward op l' h => exact .forward op l' h
  | backward f' h hnow hfold =>
    dsimp only
    rw [h.null, if_neg Bool.false_ne_true]
    exact .backward f' h hnow hfold

/-- A place that has handed its work over changes nothing. -/
theorem moveDown_null (formats : ViewFormats) (ps : List (Place Draw Blit Val)) :
    moveDown formats ⟨.null, []⟩ ps = (⟨.null, []⟩, ps) := by
  induction ps with
  | nil => rfl
  | cons p ps ih =>
    unfold moveDown
    split
    · rw [ih]
    · have hcheck : (⟨.null, []⟩ : Place Draw Blit Val).check formats p =
          (.swap, ⟨.null, []⟩, p) := rfl
      rw [hcheck]
      dsimp only
      rw [ih]

/-! ## The loop keeps the order -/

/-- The places stand in an order that what they carry allows. -/
structure Ordered (orig : Nat → Encoder Draw Blit Val) (ps : List (Place Draw Blit Val)) :
    Prop where
  before : ps.Pairwise (StandsBefore orig)
  carries : ∀ p ∈ ps, Carries orig p

/-- The places carry the encoders from `j` to `n` and no others. -/
def Covers (ps : List (Place Draw Blit Val)) (j n : Nat) : Prop :=
  ∀ b, (∃ p ∈ ps, b ∈ p.carried) ↔ j ≤ b ∧ b < n

theorem pairwise_window {α : Type} {R : α → α → Prop} {f l : α} {P ps : List α} :
    (f :: (P ++ l :: ps)).Pairwise R ↔
      ((∀ p ∈ P, R f p) ∧ R f l ∧ ∀ q ∈ ps, R f q) ∧ P.Pairwise R ∧
        ((∀ q ∈ ps, R l q) ∧ ps.Pairwise R) ∧ ∀ p ∈ P, R p l ∧ ∀ q ∈ ps, R p q := by
  rw [List.pairwise_cons, List.pairwise_append, List.pairwise_cons]
  simp only [List.mem_append, List.mem_cons, or_imp, forall_and, forall_eq]

/-- Who carries an encoder. -/
theorem carried_window {f l : Place Draw Blit Val} {P ps : List (Place Draw Blit Val)} {b : Nat} :
    (∃ p ∈ f :: (P ++ l :: ps), b ∈ p.carried) ↔
      (b ∈ f.carried ∨ b ∈ l.carried) ∨ (∃ p ∈ P, b ∈ p.carried) ∨ ∃ q ∈ ps, b ∈ q.carried := by
  simp only [List.mem_cons, List.mem_append, or_and_right, exists_or, exists_eq_left]
  rw [or_assoc, or_left_comm (b := b ∈ l.carried)]

theorem standsBefore_nil_right {q : Place Draw Blit Val} {e : Encoder Draw Blit Val} :
    StandsBefore orig q ⟨e, []⟩ :=
  ⟨fun _ _ _ hb => absurd hb List.not_mem_nil, fun h => absurd rfl h⟩

theorem standsBefore_nil_left {q : Place Draw Blit Val} {e : Encoder Draw Blit Val} :
    StandsBefore orig ⟨e, []⟩ q := by
  refine ⟨fun _ ha => absurd ha List.not_mem_nil, fun hq _ => ?_⟩
  obtain ⟨w, hw⟩ := List.exists_mem_of_ne_nil _ hq
  exact ⟨w, hw, fun _ ha => absurd ha List.not_mem_nil⟩

theorem Free.symm (h : Free orig p q) : Free orig q p :=
  fun b hb a ha hdep => h a ha b hb hdep.symm

/-- The work of `p` and of `p'` before `q`. -/
theorem append_standsBefore_of {e : Encoder Draw Blit Val} (he : e.isMovable = true)
    (h : ∀ a ∈ p.carried, ∀ b ∈ q.carried, a ≠ b ∧ (b < a → ¬ Depends (orig a) (orig b)))
    (h' : ∀ a ∈ p'.carried, ∀ b ∈ q.carried, a ≠ b ∧ (b < a → ¬ Depends (orig a) (orig b))) :
    StandsBefore orig ⟨e, p.carried ++ p'.carried⟩ q :=
  ⟨fun a ha b hb => (List.mem_append.mp ha).elim (fun ha => h a ha b hb) fun ha => h' a ha b hb,
    fun _ hmov => absurd (he.symm.trans hmov) Bool.noConfusion⟩

/-- What has no order may stand either way round. -/
theorem Free.apart (h : Free orig p q) (hb : StandsBefore orig p q) :
    ∀ b ∈ q.carried, ∀ a ∈ p.carried, b ≠ a ∧ (a < b → ¬ Depends (orig b) (orig a)) :=
  fun b hb' a ha => ⟨fun he => (hb.apart a ha b hb').1 he.symm,
    fun _ hdep => h a ha b hb' hdep.symm⟩

/-- `f`, which stands before `q`, goes into the place `l` behind it. -/
theorem standsBefore_append {f l : Place Draw Blit Val} {e : Encoder Draw Blit Val}
    (h : Free orig f q) (hf : StandsBefore orig f q) (hl : StandsBefore orig q l)
    (hne : l.carried ≠ []) : StandsBefore orig q ⟨e, f.carried ++ l.carried⟩ := by
  refine ⟨fun a ha b hb => ?_, fun _ hmov => ?_⟩
  · rcases List.mem_append.mp hb with hb | hb
    · exact h.apart hf a ha b hb
    · exact hl.apart a ha b hb
  · obtain ⟨w, hw, hlt⟩ := hl.later hne hmov
    exact ⟨w, List.mem_append_right _ hw, hlt⟩

theorem ordered_window {f l : Place Draw Blit Val} {P ps : List (Place Draw Blit Val)}
    (hw : ((∀ p ∈ P, StandsBefore orig f p) ∧ StandsBefore orig f l ∧
        ∀ q ∈ ps, StandsBefore orig f q) ∧ P.Pairwise (StandsBefore orig) ∧
      ((∀ q ∈ ps, StandsBefore orig l q) ∧ ps.Pairwise (StandsBefore orig)) ∧
      ∀ p ∈ P, StandsBefore orig p l ∧ ∀ q ∈ ps, StandsBefore orig p q)
    (hf : Carries orig f) (hl : Carries orig l) (hP : ∀ p ∈ P, Carries orig p)
    (hps : ∀ p ∈ ps, Carries orig p) : Ordered orig (f :: (P ++ l :: ps)) := by
  refine ⟨pairwise_window.mpr hw, fun p hp => ?_⟩
  rcases List.mem_cons.mp hp with rfl | hp
  · exact hf
  rcases List.mem_append.mp hp with hp | hp
  · exact hP p hp
  rcases List.mem_cons.mp hp with rfl | hp
  · exact hl
  · exact hps p hp

/-- An encoder on its way down: `f` began as encoder `j`, has taken in nothing but resolves, and has
been moved past `P`. -/
structure Moving (orig : Nat → Encoder Draw Blit Val) (formats : ViewFormats) (j n : Nat)
    (f : Place Draw Blit Val) (P ps : List (Place Draw Blit Val)) : Prop where
  ordered : Ordered orig (f :: (P ++ ps))
  covers : Covers (f :: (P ++ ps)) j n
  movable : f.encoder.isMovable = true
  own : j ∈ f.carried
  taken : ∀ b ∈ f.carried, b = j ∨ ∃ l, orig b = .resolve l
  folds : FoldsNoMore formats (orig j) f.encoder
  free : ∀ p ∈ P, Free orig f p

section Moving

variable {formats : ViewFormats} {j n : Nat} {f l : Place Draw Blit Val}
  {P ps : List (Place Draw Blit Val)}

theorem Moving.carries (h : Moving orig formats j n f P ps) :
    Carries orig f ∧ (∀ p ∈ P, Carries orig p) ∧ ∀ p ∈ ps, Carries orig p :=
  ⟨h.ordered.carries f (List.mem_cons_self ..),
    fun p hp => h.ordered.carries p (List.mem_cons_of_mem _ (List.mem_append_left _ hp)),
    fun p hp => h.ordered.carries p (List.mem_cons_of_mem _ (List.mem_append_right _ hp))⟩

theorem becomes_resolve {a : Encoder Draw Blit Val} {l : ResolveEncoderData}
    (h : a.Becomes (.resolve l)) : a = .resolve l := h

/-- **A resolve is folded** only where nothing that the pass has moved past depends on it. -/
theorem Moving.free_of_folds (h : Moving orig formats j n f P (l :: ps))
    (hfold : FoldsApart orig formats n) (hnow : f.encoder.Folds formats l.encoder) :
    ∀ p ∈ P, Free orig p l := by
  obtain ⟨⟨hfP, hfl, hfps⟩, -, ⟨hlps, -⟩, hPl⟩ := pairwise_window.mp h.ordered.before
  obtain ⟨-, -, hcps⟩ := h.carries
  have hcl := hcps l (List.mem_cons_self ..)
  obtain ⟨resolve, hres⟩ := hnow.resolve
  have hcarried : ∀ b ∈ l.carried, orig b = .resolve resolve := fun b hb =>
    becomes_resolve (hres ▸ hcl.becomes b hb)
  intro p hp y hy r hr hdep
  have hcover : ∀ b, ((b ∈ f.carried ∨ b ∈ l.carried) ∨ (∃ p ∈ P, b ∈ p.carried) ∨
      ∃ q ∈ ps, b ∈ q.carried) ↔ j ≤ b ∧ b < n := fun b => by rw [← h.covers b, carried_window]
  have hyr : y < r := by
    obtain ⟨hne, hlt⟩ := (hPl p hp).1.apart y hy r hr
    exact Nat.lt_of_le_of_ne (Nat.le_of_not_lt fun hry => hlt hry hdep) hne
  have hjy : j < y :=
    Nat.lt_of_le_of_ne ((hcover y).mp (Or.inr (Or.inl ⟨p, hp, hy⟩))).1
      (((hfP p hp).apart j h.own y hy).1)
  have hrn : r < n := ((hcover r).mp (Or.inl (Or.inr hr))).2
  have hjr : (orig j).Folds formats (orig r) := by
    rw [hcarried r hr, ← hres]
    exact h.folds _ hnow
  obtain ⟨z, hzr, hjz, hzres, hdz, hstay⟩ :=
    hfold r hrn j (hjy.trans hyr) hjr ⟨y, hyr, hjy, hdep⟩
  -- the encoder in the way has to be somewhere
  rcases (hcover z).mpr ⟨hjz.le, hzr.trans hrn⟩ with (hz | hz) | ⟨q, hq, hz⟩ | ⟨q, hq, hz⟩
  · rcases h.taken z hz with rfl | ⟨l', hl'⟩
    · exact absurd hjz (Nat.lt_irrefl _)
    · exact hzres l' hl'
  · exact hzres _ (hcarried z hz)
  · exact h.free q hq j h.own z hz hdz
  · rcases hstay with hzdep | hnojoin
    · exact ((hlps q hq).apart r hr z hz).2 hzr hzdep.symm
    · obtain ⟨w, hw, hlt⟩ := (hlps q hq).later (fun hnil => by simp [hnil] at hz)
        (by rw [hres]; rfl)
      have hrw := hlt r hr
      have hcq := hcps q (List.mem_cons_of_mem _ hq)
      have hwn : w < n := ((hcover w).mp (Or.inr (Or.inr ⟨q, hq, hw⟩))).2
      exact hnojoin w hwn hrw (hcq.joined z hz w hw (Nat.ne_of_lt (hzr.trans hrw)))

/-- **One call** on an encoder on its way down. -/
theorem Moving.check (hd : FencesApart orig) (hfold : FoldsApart orig formats n)
    {f' l' : Place Draw Blit Val} {op : EncoderListOp} (h : Moving orig formats j n f P (l :: ps))
    (hl : l.encoder.isNull = false) (hr : f.check formats l = (op, f', l')) :
    Ordered orig (f' :: (P ++ l' :: ps)) ∧ Covers (f' :: (P ++ l' :: ps)) j n ∧
      (op = .swap → f' = ⟨.null, []⟩ ∨ Moving orig formats j n f' (P ++ [l']) ps) := by
  have hf := h.movable
  obtain ⟨hcf, hcP, hcl'⟩ := h.carries
  have hcl := hcl' l (List.mem_cons_self ..)
  have hcps := fun p hp => hcl' p (List.mem_cons_of_mem _ hp)
  have hw := pairwise_window.mp h.ordered.before
  obtain ⟨⟨hfP, hfl, hfps⟩, hPP, ⟨hlps, hpsps⟩, hPl⟩ := id hw
  have hfe : f.encoder.isEvent = false := by
    cases he : f.encoder <;> rw [he] at hf <;> first | rfl | cases hf
  have hlne : l.carried ≠ [] := fun hnil => by
    rw [hcl.empty.mpr hnil] at hl
    cases hl
  have hmoved := Place.check_checked formats hf hl
  have hcovers : ∀ {g k : Place Draw Blit Val},
      (∀ b, (b ∈ g.carried ∨ b ∈ k.carried) ↔ (b ∈ f.carried ∨ b ∈ l.carried)) →
      Covers (g :: (P ++ k :: ps)) j n := by
    intro g k hgk b
    rw [← h.covers b, carried_window, carried_window, hgk]
  rw [hr] at hmoved
  cases hmoved with
  | kept op f' l' hsf hsl hfoldf hswap =>
    have hord : Ordered orig (⟨f', f.carried⟩ :: (P ++ ⟨l', l.carried⟩ :: ps)) := by
      refine ordered_window ⟨⟨fun p hp => ?_, ?_, fun q hq => ?_⟩, hPP, ⟨fun q hq => ?_, hpsps⟩,
        fun p hp => ⟨⟨(hPl p hp).1.apart, (hPl p hp).1.later⟩, (hPl p hp).2⟩⟩
        (hcf.congr hsf rfl) (hcl.congr hsl rfl) hcP hcps
      · exact ⟨(hfP p hp).apart, fun hne hm => (hfP p hp).later hne (hsf.movable ▸ hm)⟩
      · exact ⟨hfl.apart, fun hne hm => hfl.later hne (hsf.movable ▸ hm)⟩
      · exact ⟨(hfps q hq).apart, fun hne hm => (hfps q hq).later hne (hsf.movable ▸ hm)⟩
      · exact ⟨(hlps q hq).apart, fun hne hm => (hlps q hq).later hne (hsl.movable ▸ hm)⟩
    refine ⟨hord, hcovers fun b => Iff.rfl, fun hop => Or.inr ?_⟩
    obtain ⟨hle, hdep⟩ := hswap hop
    refine ⟨List.append_cons P _ ps ▸ hord, List.append_cons P _ ps ▸ hcovers fun b => Iff.rfl,
      hsf.movable.trans hf, h.own, h.taken, fun k hk => h.folds k (hfoldf k hk), fun p hp => ?_⟩
    rcases List.mem_append.mp hp with hp | hp
    · exact h.free p hp
    · rw [List.mem_singleton.mp hp]
      have hfree : Free orig f l := free_of_swap hd hcf hcl hfl hfe hle hdep
      exact hfree
  | forward op l' habs =>
    have hmov : l'.isMovable = true := habs.movable.1
    refine ⟨ordered_window ⟨⟨fun _ _ => standsBefore_nil_left, standsBefore_nil_left,
      fun _ _ => standsBefore_nil_left⟩, hPP, ⟨fun q hq => ?_, hpsps⟩, fun p hp => ⟨?_, ?_⟩⟩
      carries_null ?_ hcP hcps, hcovers fun b => ?_, fun _ => Or.inl rfl⟩
    · exact append_standsBefore_of hmov (hfps q hq).apart (hlps q hq).apart
    · exact standsBefore_append (h.free p hp) (hfP p hp) (hPl p hp).1 hlne
    · exact (hPl p hp).2
    · exact hcf.absorbs hcl (fun a ha b hb => (hfl.apart a ha b hb).1) (isNull_of_isMovable hf) hl
        habs fun b => List.mem_append
    · rw [List.mem_append]
      exact or_iff_right List.not_mem_nil
  | backward f' habs hnow hfoldf =>
    have hmov : f'.isMovable = true := habs.movable.1
    have hlP := h.free_of_folds hfold hnow
    have hcov : Covers (⟨f', f.carried ++ l.carried⟩ :: (P ++ ⟨.null, []⟩ :: ps)) j n :=
      hcovers fun b => by
        rw [List.mem_append]
        exact or_iff_left List.not_mem_nil
    have hord : Ordered orig (⟨f', f.carried ++ l.carried⟩ :: (P ++ ⟨.null, []⟩ :: ps)) := by
      refine ordered_window ⟨⟨fun p hp => ?_, standsBefore_nil_right, fun q hq => ?_⟩, hPP,
        ⟨fun _ _ => standsBefore_nil_left, hpsps⟩,
        fun p hp => ⟨standsBefore_nil_right, (hPl p hp).2⟩⟩ ?_ carries_null hcP hcps
      · exact append_standsBefore_of hmov (hfP p hp).apart ((hlP p hp).apart (hPl p hp).1)
      · exact append_standsBefore_of hmov (hfps q hq).apart (hlps q hq).apart
      · exact hcl.absorbs hcf (fun a ha b hb => (hfl.apart b hb a ha).1.symm) hl
          (isNull_of_isMovable hf) habs fun b => List.mem_append.trans or_comm
    refine ⟨hord, hcov, fun _ => Or.inr ⟨List.append_cons P _ ps ▸ hord,
      List.append_cons P _ ps ▸ hcov, hmov, List.mem_append_left _ h.own, fun b hb => ?_,
      fun k hk => h.folds k (hfoldf k hk), fun p hp => ?_⟩⟩
    · rcases List.mem_append.mp hb with hb | hb
      · exact h.taken b hb
      · obtain ⟨resolve, hres⟩ := hnow.resolve
        exact Or.inr ⟨resolve, becomes_resolve (hres ▸ hcl.becomes b hb)⟩
    · rcases List.mem_append.mp hp with hp | hp
      · intro a ha b hb
        rcases List.mem_append.mp ha with ha | ha
        · exact h.free p hp a ha b hb
        · exact fun hdep => hlP p hp b hb a ha hdep.symm
      · rw [List.mem_singleton.mp hp]
        exact fun _ _ _ hb => absurd hb List.not_mem_nil

end Moving

/-- The inner loop, after `f` has been moved past `P`. -/
theorem moveDown_ordered (hd : FencesApart orig) (formats : ViewFormats) {j n : Nat}
    (hfold : FoldsApart orig formats n) (ps : List (Place Draw Blit Val)) :
    ∀ (f : Place Draw Blit Val) (P : List (Place Draw Blit Val)),
      Moving orig formats j n f P ps →
      Ordered orig ((moveDown formats f ps).1 :: (P ++ (moveDown formats f ps).2)) ∧
        Covers ((moveDown formats f ps).1 :: (P ++ (moveDown formats f ps).2)) j n := by
  induction ps with
  | nil => exact fun f P h => ⟨h.ordered, h.covers⟩
  | cons l ps ih =>
    intro f P h
    unfold moveDown
    by_cases hl : l.encoder.isNull = true
    · rw [if_pos hl]
      have hnil : l.carried = [] := (h.carries.2.2 l (List.mem_cons_self ..)).empty.mp hl
      have h' : Moving orig formats j n f (P ++ [l]) ps := by
        refine ⟨List.append_cons P l ps ▸ h.ordered, List.append_cons P l ps ▸ h.covers, h.movable,
          h.own, h.taken, h.folds, fun p hp => ?_⟩
        rcases List.mem_append.mp hp with hp | hp
        · exact h.free p hp
        · rw [List.mem_singleton.mp hp]
          exact fun _ _ b hb => absurd (hnil ▸ hb) List.not_mem_nil
      have := ih f (P ++ [l]) h'
      rwa [← List.append_cons] at this
    · rw [if_neg hl]
      rw [Bool.not_eq_true] at hl
      cases hr : f.check formats l with
      | mk op r =>
        obtain ⟨f', l'⟩ := r
        obtain ⟨hord, hcov, hnext⟩ := h.check hd hfold hl hr
        cases op with
        | synchronize => exact ⟨hord, hcov⟩
        | swap =>
          dsimp only
          rcases hnext rfl with rfl | h'
          · rw [moveDown_null]
            exact ⟨hord, hcov⟩
          · have := ih f' (P ++ [l']) h'
            rwa [← List.append_cons] at this

theorem becomes_self (e : Encoder Draw Blit Val) : e.Becomes e := by
  cases e <;> first | rfl | trivial

theorem carries_singleton {i : Nat} (h : (orig i).isNull = false) :
    Carries orig ⟨orig i, [i]⟩ := by
  refine ⟨iff_of_false (by rw [h]; decide) (by simp), fun x => ?_, fun b hb x hx => ?_,
    fun b hb he => ?_, fun b hb => ?_, fun a ha b hb hne => ?_⟩
  · simp
  · exact Or.inl (List.mem_singleton.mp hb ▸ hx)
  · exact List.mem_singleton.mp hb ▸ he
  · exact List.mem_singleton.mp hb ▸ becomes_self _
  · exact absurd ((List.mem_singleton.mp ha).trans (List.mem_singleton.mp hb).symm) hne

/-- **The outer loop** keeps the places in order and loses nothing they carry. -/
theorem optimize_ordered (hd : FencesApart orig) (formats : ViewFormats) {n : Nat}
    (hfold : FoldsApart orig formats n) (es : List (Encoder Draw Blit Val)) :
    ∀ j, j + es.length = n → (∀ i e, es[i]? = some e → orig (j + i) = e ∧ e.isNull = false) →
      Ordered orig (optimize formats ((es.zipIdx j).map fun e => ⟨e.1, [e.2]⟩)) ∧
        Covers (optimize formats ((es.zipIdx j).map fun e => ⟨e.1, [e.2]⟩)) j n := by
  induction es with
  | nil =>
    intro j hj _
    refine ⟨⟨List.Pairwise.nil, fun p hp => absurd hp List.not_mem_nil⟩, fun b => ?_⟩
    have hjn : j = n := hj
    refine iff_of_false (fun ⟨p, hp, _⟩ => absurd hp List.not_mem_nil) fun h => ?_
    exact absurd (h.1.trans_lt h.2) (hjn ▸ Nat.lt_irrefl _)
  | cons e es ih =>
    intro j hj hget
    obtain ⟨hje, hen⟩ := hget 0 e rfl
    have hjn : j + 1 + es.length = n := by rw [← hj, List.length_cons]; omega
    obtain ⟨hord, hcov⟩ := ih (j + 1) hjn fun i e' hi => by
      obtain ⟨he', hn'⟩ := hget (i + 1) e' hi
      exact ⟨by rw [← he']; congr 1; omega, hn'⟩
    rw [List.zipIdx_cons, List.map_cons]
    unfold optimize
    generalize optimize formats ((es.zipIdx (j + 1)).map fun e => ⟨e.1, [e.2]⟩) = ps at hord hcov ⊢
    have hcarries : Carries orig ⟨e, [j]⟩ := by
      rw [← hje]
      exact carries_singleton (by rw [hje]; exact hen)
    have hbehind : ∀ q ∈ ps, ∀ b ∈ q.carried, j < b := fun q hq b hb =>
      ((hcov b).mp ⟨q, hq, hb⟩).1
    have hcons : Ordered orig (⟨e, [j]⟩ :: ps) := by
      refine ⟨List.pairwise_cons.mpr ⟨fun q hq => ⟨fun a ha b hb => ?_, fun hne _ => ?_⟩,
        hord.before⟩, fun p hp => ?_⟩
      · rw [List.mem_singleton.mp ha]
        have hjb := hbehind q hq b hb
        exact ⟨hjb.ne, fun hbj => absurd hbj hjb.not_gt⟩
      · obtain ⟨w, hw⟩ := List.exists_mem_of_ne_nil _ hne
        exact ⟨w, hw, fun a ha => List.mem_singleton.mp ha ▸ hbehind q hq w hw⟩
      · rcases List.mem_cons.mp hp with rfl | hp
        · exact hcarries
        · exact hord.carries p hp
    have hcover : Covers (⟨e, [j]⟩ :: ps) j n := by
      intro b
      simp only [List.mem_cons, exists_eq_or_imp, List.not_mem_nil, or_false]
      rw [hcov]
      omega
    split
    · next hmov =>
      refine moveDown_ordered hd formats hfold ps ⟨e, [j]⟩ []
        ⟨hcons, hcover, hmov, List.mem_singleton.mpr rfl, fun b hb => ?_, ?_,
          fun p hp => absurd hp List.not_mem_nil⟩
      · exact Or.inl (List.mem_singleton.mp hb)
      · rw [← hje]
        exact fun _ h => h
    · exact ⟨hcons, hcover⟩

end Order

/-! ## The encoder list of a flush -/

/-- The place that carries the work of encoder `a`. -/
def surv (ps : List (Place Draw Blit Val)) (a : Nat) : Nat := ps.findIdx fun p => a ∈ p.carried

/-- The encoders of the list by number. -/
def encoderAt (es : List (Encoder Draw Blit Val)) (a : Nat) : Encoder Draw Blit Val :=
  es[a]?.getD .null

/-- Encoders that all update slots of their own. -/
theorem fencesApart_of_pairwise {es : List (Encoder Draw Blit Val)}
    (h : es.Pairwise fun a b => ∀ x : Nat, x ∈ a.updates → ¬ x ∈ b.updates) :
    FencesApart (encoderAt es) := by
  have hlt : ∀ a b, a < b → ∀ x : Nat, x ∈ (encoderAt es a).updates →
      ¬ x ∈ (encoderAt es b).updates := by
    intro a b hab x hx hx'
    unfold encoderAt at hx hx'
    by_cases hb : b < es.length
    · rw [List.getElem?_eq_getElem (hab.trans hb)] at hx
      rw [List.getElem?_eq_getElem hb] at hx'
      exact List.pairwise_iff_getElem.mp h a b (hab.trans hb) hb hab x hx hx'
    · rw [List.getElem?_eq_none (Nat.le_of_not_lt hb)] at hx'
      exact not_mem_empty x hx'
  intro a b c _ hne x hx hx'
  rcases Nat.lt_or_gt_of_ne hne with hac | hca
  · exact absurd hx' (hlt a c hac x hx)
  · exact absurd hx (hlt c a hca x hx')

/-- View formats where every view has the same one. -/
def oneFormat : ViewFormats := ⟨fun _ => 0, fun v _ => v.key⟩

/-- A pass on one colour view. -/
def colorPass (view : TextureView) (id : Nat) (wait : FenceSet) : RenderEncoderData Unit Unit where
  colors := [{ attachment := some view, loadAction := .load, storeAction := .store, clearColor :=
      () }]
  depth := { loadAction := .dontCare, storeAction := .dontCare, clearValue := () }
  stencil := { loadAction := .dontCare, storeAction := .dontCare, clearValue := () }
  fenceWait := wait
  fenceUpdate := .single (id + 1)
  fenceUpdateVertex := .single id

/-- A clear of a colour view. -/
def colorClear (view : TextureView) (id : Nat) : ClearEncoderData Unit where
  color := ()
  depthStencil := ((), ())
  attachment := some view
  clearDsv := 0
  fenceUpdate := .single id

/-- A resolve that waits for two fences. -/
def resolveAfter (src dst : TextureView) (id x y : Nat) : ResolveEncoderData where
  src := src
  dst := dst
  fenceWait := (FenceSet.single x).set y
  fenceUpdate := .single id

/-- A clear, an independent compute pass, the pass on the cleared view, a compute pass that reads it
and a resolve of the view into what that compute pass wrote: the clear is folded across the first
compute pass, and the second one keeps the resolve where it is. -/
def clearAcross : List (Encoder Unit Unit Unit) :=
  [.clear (colorClear ⟨0, 0⟩ 256),
    .compute { fenceUpdate := .single 257 },
    .render (colorPass ⟨0, 0⟩ 258 (.single 256)),
    .compute { fenceWait := .single 259, fenceUpdate := .single 260 },
    .resolve (resolveAfter ⟨0, 0⟩ ⟨1, 0⟩ 261 259 260)]

theorem fencesApart_clearAcross : FencesApart (encoderAt clearAcross) := by
  refine fencesApart_of_pairwise ?_
  unfold clearAcross
  simp +contextual [Encoder.updates, colorPass, colorClear, resolveAfter]
  constructor <;> intro x hx hx' <;> omega

theorem foldsApart_clearAcross : FoldsApart (encoderAt clearAcross) oneFormat 5 := by
  intro r hr j hj hfold _
  obtain ⟨pass, hpass⟩ := hfold.render
  obtain ⟨resolve, hresolve⟩ := hfold.resolve
  have hr4 : r = 4 := by
    rcases r with _ | _ | _ | _ | _ | r
    all_goals first | rfl | cases hresolve
  have hj2 : j = 2 := by
    rcases j with _ | _ | _ | _ | j
    all_goals first | rfl | cases hpass | omega
  subst hr4 hj2
  exact ⟨3, by decide, by decide, (fun l h => nomatch h), Or.inl ⟨259, by decide, by decide⟩,
    Or.inl (Or.inl ⟨260, by decide, by decide⟩)⟩

/-- A pass, a compute pass that writes the destination of the resolve after it, and the resolve. -/
def resolveAcross : List (Encoder Unit Unit Unit) :=
  [.render (colorPass ⟨0, 0⟩ 256 ∅),
    .compute { fenceUpdate := .single 258 },
    .resolve (resolveAfter ⟨0, 0⟩ ⟨1, 0⟩ 259 257 258)]

/-- A compute pass, and two passes of which the first shares its slot and the second waits for it.
-/
def slotShared : List (Encoder Unit Unit Unit) :=
  [.compute { fenceUpdate := .single 2 },
    .render (colorPass ⟨0, 0⟩ 257 ∅),
    .render (colorPass ⟨0, 0⟩ 259 (.single 2))]

/-- The merge of the two passes takes the wait for the compute pass away. -/
theorem wait_lost :
    surv (optimize oneFormat (places slotShared)) 0 <
      surv (optimize oneFormat (places slotShared)) 2 ∧
      ∀ p q, (optimize oneFormat (places slotShared))[0]? = some p →
        (optimize oneFormat (places slotShared))[2]? = some q →
        hasDataDependency q.encoder p.encoder = false := by
  refine ⟨by decide, fun p q hp hq => ?_⟩
  cases hp
  cases hq
  decide

end Dxmt
