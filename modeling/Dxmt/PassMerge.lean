import Dxmt.EncoderOrder

/-!
# The command stream of merged render passes: `checkEncoderRelation` of two render encoders

A merge of two render passes puts the commands of the first before those of the second. Two things
that a pass relies on do not survive that. A draw recorded without an active query sets no
visibility mode when it is the first of its pass, and then runs under whatever mode the pass before
leaves (`visibility_lost`). And a pass waits for the fences of an earlier one at its start, while
inside one pass only a barrier orders two draws: the merge drops the wait and records no barrier.
Its guard looks at pre-raster waits for fragment fences only (`merge_loses_barrier`).

Results: `visibility_preserved` says for a whole list of encoders when every draw runs under the
mode of its own encoder; `Recorded.final_iff` and `Recorded.leading_iff` say what a merge has to be
like for that, in terms of the queries active at the draws. `merge_keeps_order` says when the
accesses of two passes stay ordered: by their attachments, fences or accesses (`KeptApart`), and in
no other case when the passes recorded no barrier for other accesses.
-/

namespace Dxmt

open RenderCommand

variable {Draw Blit Val : Type}

/-! ## Streams -/

namespace RenderCommand

/-- The draws before the first `SetVisibilityMode`, which run under the mode of what came before. -/
def leading : List (RenderCommand Draw) → List Draw
  | [] => []
  | .setVisibilityMode _ :: _ => []
  | .draw d :: cs => d :: leading cs
  | .barrier _ :: cs => leading cs
  | .setBuffer .. :: cs => leading cs

theorem length_executed (v w : Visibility) (cs : List (RenderCommand Draw)) :
    (executed v cs).length = (executed w cs).length := by
  induction cs generalizing v w with
  | nil => rfl
  | cons c cs ih =>
    cases c with
    | setVisibilityMode v' => rfl
    | draw d => exact congrArg Nat.succ (ih v w)
    | barrier k => exact ih v w
    | setBuffer s b i => exact ih v w

/-- Without leading draws the mode before does not matter. -/
theorem executed_of_leading {cs : List (RenderCommand Draw)} (h : leading cs = [])
    (v w : Visibility) : executed v cs = executed w cs := by
  induction cs with
  | nil => rfl
  | cons c cs ih =>
    cases c with
    | setVisibilityMode v' => rfl
    | draw d => cases h
    | barrier k => exact ih h
    | setBuffer s b i => exact ih h

/-- With leading draws it shows. -/
theorem eq_of_executed_eq {cs : List (RenderCommand Draw)} (h : leading cs ≠ []) {v w : Visibility}
    (he : executed v cs = executed w cs) : v = w := by
  induction cs with
  | nil => exact absurd rfl h
  | cons c cs ih =>
    cases c with
    | setVisibilityMode v' => exact absurd rfl h
    | draw d => exact congrArg Prod.snd (List.cons.inj he).1
    | barrier k => exact ih h he
    | setBuffer s b i => exact ih h he

theorem leading_append_ne {cs : List (RenderCommand Draw)} (h : leading cs ≠ [])
    (cs' : List (RenderCommand Draw)) : leading (cs ++ cs') ≠ [] := by
  induction cs with
  | nil => exact absurd rfl h
  | cons c cs ih =>
    cases c with
    | setVisibilityMode v' => exact absurd rfl h
    | draw d => exact List.cons_ne_nil _ _
    | barrier k => exact ih h
    | setBuffer s b i => exact ih h

/-- A stream that changes the mode leaves the same one whatever came before. -/
theorem finalVisibility_of_ne {cs : List (RenderCommand Draw)} {v : Visibility}
    (h : finalVisibility v cs ≠ v) (w : Visibility) :
    finalVisibility w cs = finalVisibility v cs := by
  induction cs with
  | nil => exact absurd rfl h
  | cons c cs ih => cases c <;> first | rfl | exact ih h

/-- The bindings of the argument buffers neither draw nor set the mode. -/
theorem bindings_executed (buffer : Nat) (useGeometry useTessellation : Bool) (v : Visibility) :
    executed v (renderArgumentBufferBindings buffer useGeometry useTessellation :
        List (RenderCommand Draw)) = [] ∧
      finalVisibility v (renderArgumentBufferBindings buffer useGeometry useTessellation :
        List (RenderCommand Draw)) = v := by
  cases useGeometry <;> cases useTessellation <;> exact ⟨rfl, rfl⟩

theorem mem_bindings {buffer : Nat} {useGeometry useTessellation : Bool} {c : RenderCommand Draw}
    (hc : c ∈ renderArgumentBufferBindings buffer useGeometry useTessellation) :
    ∃ stage buffer index, c = .setBuffer stage buffer index := by
  unfold renderArgumentBufferBindings at hc
  cases useGeometry <;> cases useTessellation <;> simp at hc <;> aesop

end RenderCommand

/-- The draws of a merged pass: those of `r0`, then those of `r1` under the mode that `r0` leaves.
-/
theorem executed_mergeCommands (r0 r1 : RenderEncoderData Draw Val) (v : Visibility) :
    executed v (mergeCommands r0 r1) =
      executed v r0.cmd ++ executed (finalVisibility v r0.cmd) r1.cmd := by
  unfold mergeCommands
  split
  · next hempty =>
    rw [List.isEmpty_iff.mp hempty]
    rfl
  · split
    · simp only [executed_append, finalVisibility_append, (bindings_executed _ _ _ _).1,
        (bindings_executed _ _ _ _).2, List.nil_append, List.append_nil]
    · exact executed_append v r0.cmd r1.cmd

/-! ## What one call does to the streams -/

namespace Encoder

/-- The command stream, empty for an encoder without draws. -/
def cmds : Encoder Draw Blit Val → List (RenderCommand Draw)
  | render r => r.cmd
  | _ => []

end Encoder

open Encoder

/-- What `checkEncoderRelation` may do to the streams: nothing, or it merges two render passes. An
encoder that goes otherwise has no draws. -/
inductive Streamed (f l : Encoder Draw Blit Val) :
    EncoderListOp × Encoder Draw Blit Val × Encoder Draw Blit Val → Prop where
  | same (op : EncoderListOp) (f' l' : Encoder Draw Blit Val) (hf : f'.cmds = f.cmds)
      (hl : l'.cmds = l.cmds) (hfn : f'.isNull = true → f.cmds = [])
      (hln : l'.isNull = true → l.cmds = [])
      (hmerge : ∀ r0 r1, f = .render r0 → l = .render r1 → canMergeRender r0 r1 = false) :
      Streamed f l (op, f', l')
  | merge (r0 r1 : RenderEncoderData Draw Val) (hf : f = .render r0) (hl : l = .render r1)
      (hmerge : canMergeRender r0 r1 = true) :
      Streamed f l (.synchronize, .null, .render (mergeRender r0 r1))

theorem cmds_of_isNull {e : Encoder Draw Blit Val} (h : e.isNull = true) : e.cmds = [] := by
  cases e <;> first | rfl | cases h

theorem foldClearDepthStencil_cmd (clear : ClearEncoderData Val)
    (render : RenderEncoderData Draw Val) :
    (foldClearDepthStencil clear render).2.cmd = render.cmd := by
  unfold foldClearDepthStencil
  by_cases hd : isClearDepthSignatureMatched clear render = true
  · simp only [if_pos hd]
    split <;> rfl
  · simp only [if_neg hd]
    split <;> rfl

theorem discardCleared_cmd (render : RenderEncoderData Draw Val) (clear : ClearEncoderData Val) :
    (discardCleared render clear).cmd = render.cmd := by
  unfold discardCleared
  dsimp only
  split <;> split <;> rfl

/-- A clear has no draws, whatever becomes of it. -/
theorem streamed_clearRender (clear : ClearEncoderData Val) (render : RenderEncoderData Draw Val) :
    Streamed (.clear clear : Encoder Draw Blit Val) (.render render)
      (checkClearRender clear render) := by
  have hcmd := foldClearDepthStencil_cmd clear render
  unfold checkClearRender
  split
  · exact .same _ _ _ rfl rfl (fun h => nomatch h) (fun h => nomatch h) fun _ _ h => nomatch h
  split
  · dsimp only
    split
    · exact .same _ _ _ rfl hcmd (fun _ => rfl) (fun h => nomatch h) fun _ _ h => nomatch h
    · exact .same _ _ _ rfl hcmd (fun h => nomatch h) (fun h => nomatch h) fun _ _ h => nomatch h
  split
  · exact .same _ _ _ rfl rfl (fun _ => rfl) (fun h => nomatch h) fun _ _ h => nomatch h
  · exact .same _ _ _ rfl rfl (fun h => nomatch h) (fun h => nomatch h) fun _ _ h => nomatch h

theorem streamed_renderResolve (formats : ViewFormats) (render : RenderEncoderData Draw Val)
    (resolve : ResolveEncoderData) :
    Streamed (.render render : Encoder Draw Blit Val) (.resolve resolve)
      (checkRenderResolve formats render resolve) := by
  unfold checkRenderResolve
  split
  · exact .same _ _ _ rfl rfl (fun h => nomatch h) (fun _ => rfl) fun _ _ _ h => nomatch h
  · exact .same _ _ _ rfl rfl (fun h => nomatch h) (fun h => nomatch h) fun _ _ _ h => nomatch h

theorem streamed_renderRender (r0 r1 : RenderEncoderData Draw Val) :
    Streamed (.render r0 : Encoder Draw Blit Val) (.render r1) (checkRenderRender r0 r1) := by
  unfold checkRenderRender
  split
  · next hm => exact .merge r0 r1 rfl rfl hm
  · next hm =>
    refine .same _ _ _ rfl rfl (fun h => nomatch h) (fun h => nomatch h) fun s0 s1 h0 h1 => ?_
    cases h0
    cases h1
    exact Bool.eq_false_iff.mpr hm

/-- **One call** and the streams of the two encoders. -/
theorem checkEncoderRelation_streamed (formats : ViewFormats) (f l : Encoder Draw Blit Val) :
    Streamed f l (checkEncoderRelation formats f l) := by
  have hkept : ∀ op, (∀ r0 r1, f = .render r0 → l = .render r1 → canMergeRender r0 r1 = false) →
      Streamed f l (op, f, l) := fun op hm =>
    .same op f l rfl rfl cmds_of_isNull cmds_of_isNull hm
  unfold checkEncoderRelation
  split
  · next hn =>
    refine hkept _ fun r0 r1 h0 h1 => ?_
    rw [h0, h1] at hn
    cases hn
  split
  · next he =>
    refine hkept _ fun r0 r1 h0 h1 => ?_
    rw [h0, h1] at he
    cases he
  split
  · split
    · exact hkept _ fun _ _ h => nomatch h
    · exact .same _ _ _ rfl rfl (fun _ => rfl) (fun h => nomatch h) fun _ _ h => nomatch h
  · exact streamed_clearRender _ _
  · exact .same _ _ _ (discardCleared_cmd _ _) rfl (fun h => nomatch h) (fun h => nomatch h)
      fun _ _ _ h => nomatch h
  · exact streamed_renderResolve _ _ _
  · exact streamed_renderRender _ _
  · next hrr => exact hkept _ fun r0 r1 h0 h1 => absurd h1 (hrr r0 r1 h0)

/-! ## The draws of a place -/

section Visibility

variable (orig : Nat → Encoder Draw Blit Val)

/-- The draws of an encoder, each with the mode it runs under when the encoder is alone. -/
def drawsOf (e : Encoder Draw Blit Val) : List (Draw × Visibility) := executed .disabled e.cmds

/-- Every draw of the place runs under the mode of its own encoder. -/
def Faithful (p : Place Draw Blit Val) : Prop :=
  drawsOf p.encoder = p.carried.flatMap fun a => drawsOf (orig a)

/-- The place has the draws of its own encoders, but some of them run under another mode, whatever
comes before the place. -/
structure Spoilt (p : Place Draw Blit Val) : Prop where
  length : (drawsOf p.encoder).length = (p.carried.flatMap fun a => drawsOf (orig a)).length
  mode : ∀ v, executed v p.encoder.cmds ≠ p.carried.flatMap fun a => drawsOf (orig a)

/-- A merge of two passes of the call leaves no query counting into the draws that follow: the first
pass ends with the counting off, or the second one sets the mode before its first draw. -/
def Call.Seamless (c : Call Draw Blit Val) : Prop :=
  ∀ r0 r1, c.former.encoder = .render r0 → c.latter.encoder = .render r1 →
    canMergeRender r0 r1 = true → finalVisibility .disabled r0.cmd = .disabled ∨ leading r1.cmd = []

variable {orig} {f l f' l' : Place Draw Blit Val}

theorem Spoilt.not_faithful {p : Place Draw Blit Val} (h : Spoilt orig p) : ¬ Faithful orig p :=
  h.mode .disabled

/-- What two passes draw when the first one is faithful. -/
theorem merged_iff {p q : Place Draw Blit Val} (hp : Faithful orig p) (v w : Visibility) :
    executed v p.encoder.cmds ++ executed w q.encoder.cmds =
        (p.carried ++ q.carried).flatMap (fun a => drawsOf (orig a)) ↔
      executed v p.encoder.cmds = drawsOf p.encoder ∧
        executed w q.encoder.cmds = q.carried.flatMap fun a => drawsOf (orig a) := by
  rw [List.flatMap_append, ← hp]
  constructor
  · exact fun h => List.append_inj h (length_executed _ _ _)
  · exact fun h => congrArg₂ (· ++ ·) h.1 h.2

theorem Place.check_eq (formats : ViewFormats) (f l : Place Draw Blit Val) {op : EncoderListOp}
    {ef el : Encoder Draw Blit Val}
    (h : checkEncoderRelation formats f.encoder l.encoder = (op, ef, el)) :
    f.check formats l =
      if ef.isNull then (op, ⟨ef, []⟩, ⟨el, f.carried ++ l.carried⟩)
      else if el.isNull then (op, ⟨ef, f.carried ++ l.carried⟩, ⟨el, []⟩)
      else (op, ⟨ef, f.carried⟩, ⟨el, l.carried⟩) := by
  unfold Place.check
  rw [h]

/-- A place whose draws and whose own draws are those of another. -/
theorem faithful_congr {p q : Place Draw Blit Val} (he : p.encoder.cmds = q.encoder.cmds)
    (hc : p.carried.flatMap (fun a => drawsOf (orig a)) =
      q.carried.flatMap fun a => drawsOf (orig a)) :
    (Faithful orig p ↔ Faithful orig q) ∧ (Spoilt orig p ↔ Spoilt orig q) := by
  have hd : drawsOf p.encoder = drawsOf q.encoder := congrArg (executed .disabled) he
  refine ⟨?_, fun h => ⟨?_, ?_⟩, fun h => ⟨?_, ?_⟩⟩
  · unfold Faithful
    rw [hd, hc]
  · rw [← hd, ← hc]
    exact h.length
  · rw [← he, ← hc]
    exact h.mode
  · rw [hd, hc]
    exact h.length
  · rw [he, hc]
    exact h.mode

/-- A place without draws carries none. -/
theorem carried_nil {p : Place Draw Blit Val} (hp : Faithful orig p ∨ Spoilt orig p)
    (hnil : p.encoder.cmds = []) : p.carried.flatMap (fun a => drawsOf (orig a)) = [] := by
  have hd : drawsOf p.encoder = [] := by
    unfold drawsOf
    rw [hnil]
    rfl
  rcases hp with hp | hp
  · exact hp.symm.trans hd
  · have hlen := hp.length
    rw [hd] at hlen
    exact List.eq_nil_of_length_eq_zero hlen.symm

theorem faithful_nil {e : Encoder Draw Blit Val} (h : e.cmds = []) :
    Faithful orig (⟨e, []⟩ : Place Draw Blit Val) := by
  unfold Faithful drawsOf
  dsimp only
  rw [h]
  rfl

/-- The draws of a merged pass are faithful if the first one leaves the counting off or the second
one sets its own mode, and spoilt otherwise. -/
theorem merged_faithful {r0 r1 : RenderEncoderData Draw Val} {c0 c1 : List Nat}
    (h0 : Faithful orig (⟨.render r0, c0⟩ : Place Draw Blit Val))
    (h1 : Faithful orig (⟨.render r1, c1⟩ : Place Draw Blit Val) ∨
      Spoilt orig (⟨.render r1, c1⟩ : Place Draw Blit Val)) :
    (Faithful orig (⟨.render (mergeRender r0 r1), c0 ++ c1⟩ : Place Draw Blit Val) ∨
        Spoilt orig (⟨.render (mergeRender r0 r1), c0 ++ c1⟩ : Place Draw Blit Val)) ∧
      (Spoilt orig (⟨.render (mergeRender r0 r1), c0 ++ c1⟩ : Place Draw Blit Val) ↔
        Spoilt orig (⟨.render r1, c1⟩ : Place Draw Blit Val) ∨
          ¬ (finalVisibility .disabled r0.cmd = .disabled ∨ leading r1.cmd = [])) := by
  have hexec : ∀ v, executed v (mergeRender r0 r1).cmd =
      executed v r0.cmd ++ executed (finalVisibility v r0.cmd) r1.cmd :=
    executed_mergeCommands r0 r1
  have hiff := fun v => merged_iff (q := ⟨.render r1, c1⟩) h0 v (finalVisibility v r0.cmd)
  have hlen : (drawsOf (.render (mergeRender r0 r1) : Encoder Draw Blit Val)).length =
      ((c0 ++ c1).flatMap fun a => drawsOf (orig a)).length := by
    have hl1 : (drawsOf (.render r1 : Encoder Draw Blit Val)).length =
        (c1.flatMap fun a => drawsOf (orig a)).length :=
      h1.elim (fun h => congrArg List.length h) Spoilt.length
    rw [List.flatMap_append, List.length_append, ← hl1, ← h0]
    show (executed .disabled (mergeRender r0 r1).cmd).length = _
    rw [hexec, List.length_append, length_executed _ .disabled r1.cmd]
    rfl
  by_cases hs : finalVisibility .disabled r0.cmd = .disabled ∨ leading r1.cmd = []
  · have hsame : executed (finalVisibility .disabled r0.cmd) r1.cmd = executed .disabled r1.cmd :=
      hs.elim (fun h => by rw [h]) fun h => executed_of_leading h _ _
    rcases h1 with h1 | h1
    · have hgood : Faithful orig (⟨.render (mergeRender r0 r1), c0 ++
          c1⟩ : Place Draw Blit Val) := by
        refine (hexec .disabled).trans ((hiff .disabled).mpr ⟨rfl, ?_⟩)
        exact hsame.trans h1
      exact ⟨Or.inl hgood, fun h => absurd hgood h.not_faithful,
        fun h => h.elim (fun h => absurd h1 h.not_faithful) fun h => absurd hs h⟩
    · have hbad : Spoilt orig (⟨.render (mergeRender r0 r1), c0 ++ c1⟩ : Place Draw Blit Val) :=
        ⟨hlen, fun v h => h1.mode _ ((hiff v).mp ((hexec v).symm.trans h)).2⟩
      exact ⟨Or.inr hbad, fun _ => Or.inl h1, fun _ => hbad⟩
  · -- the mode that `r0` leaves is its own, so it reaches the leading draws of `r1`
    rw [not_or] at hs
    have hbad : Spoilt orig (⟨.render (mergeRender r0 r1), c0 ++ c1⟩ : Place Draw Blit Val) := by
      refine ⟨hlen, fun v h => ?_⟩
      have htail := ((hiff v).mp ((hexec v).symm.trans h)).2
      rw [finalVisibility_of_ne hs.1 v] at htail
      rcases h1 with h1 | h1
      · exact hs.1 (eq_of_executed_eq hs.2 (htail.trans h1.symm))
      · exact h1.mode _ htail
    exact ⟨Or.inr hbad, fun _ => Or.inr (not_or.mpr hs), fun _ => hbad⟩

/-- **One call.** The former place stays faithful, the latter one stays as it is unless the merge of
the call is not seamless, which spoils it. -/
theorem check_faithful (formats : ViewFormats) (P : List (Place Draw Blit Val)) {op : EncoderListOp}
    (hf : Faithful orig f) (hl : Faithful orig l ∨ Spoilt orig l)
    (hr : f.check formats l = (op, f', l')) :
    Faithful orig f' ∧ (Faithful orig l' ∨ Spoilt orig l') ∧
      (Spoilt orig l' ↔ Spoilt orig l ∨ ¬ (⟨f, P, l⟩ : Call Draw Blit Val).Seamless) := by
  have hs := checkEncoderRelation_streamed formats f.encoder l.encoder
  generalize hce : checkEncoderRelation formats f.encoder l.encoder = r at hs
  cases hs with
  | same op' ef el hfc hlc hfn hln hmerge =>
    have hseam : (⟨f, P, l⟩ : Call Draw Blit Val).Seamless := fun r0 r1 h0 h1 hm =>
      absurd ((hmerge r0 r1 h0 h1).symm.trans hm) Bool.noConfusion
    have hkeep : ∀ {p : Place Draw Blit Val}, ((Faithful orig p ↔ Faithful orig l) ∧
        (Spoilt orig p ↔ Spoilt orig l)) → (Faithful orig p ∨ Spoilt orig p) ∧
          (Spoilt orig p ↔ Spoilt orig l ∨ ¬ (⟨f, P, l⟩ : Call Draw Blit Val).Seamless) := by
      intro p hp
      rw [hp.1, hp.2]
      exact ⟨hl, (or_iff_left (not_not_intro hseam)).symm⟩
    rw [Place.check_eq formats f l hce] at hr
    by_cases hnf : ef.isNull = true
    · rw [if_pos hnf] at hr
      cases hr
      refine ⟨faithful_nil (cmds_of_isNull hnf), hkeep (faithful_congr hlc ?_)⟩
      rw [List.flatMap_append, carried_nil (Or.inl hf) (hfn hnf), List.nil_append]
    rw [if_neg hnf] at hr
    by_cases hnl : el.isNull = true
    · rw [if_pos hnl] at hr
      cases hr
      have hcar := carried_nil hl (hln hnl)
      refine ⟨(faithful_congr hfc ?_).1.mpr hf, hkeep (faithful_congr hlc hcar.symm)⟩
      rw [List.flatMap_append, hcar, List.append_nil]
    · rw [if_neg hnl] at hr
      cases hr
      have hown : (Faithful orig ⟨ef, f.carried⟩ ↔ Faithful orig f) ∧ _ := faithful_congr hfc rfl
      exact ⟨hown.1.mpr hf, hkeep (faithful_congr hlc rfl)⟩
  | merge r0 r1 h0 h1 hmerge =>
    obtain ⟨ef, cf⟩ := f
    obtain ⟨el, cl⟩ := l
    cases h0
    cases h1
    rw [Place.check_eq formats _ _ hce] at hr
    cases hr
    obtain ⟨hor, hiff⟩ := merged_faithful hf hl
    refine ⟨faithful_nil rfl, hor, hiff.trans (or_congr Iff.rfl (not_congr ?_))⟩
    constructor
    · intro h s0 s1 hs0 hs1 _
      cases hs0
      cases hs1
      exact h
    · exact fun h => h r0 r1 rfl rfl hmerge

/-- **The inner loop**: some place is spoilt afterwards if one was before, or if a merge on the way
was not seamless. -/
theorem moveDown_faithful (formats : ViewFormats) (ps : List (Place Draw Blit Val)) :
    ∀ (f : Place Draw Blit Val) (P : List (Place Draw Blit Val)), Faithful orig f →
      (∀ p ∈ ps, Faithful orig p ∨ Spoilt orig p) →
      Faithful orig (moveDown formats f ps).1 ∧
        (∀ p ∈ (moveDown formats f ps).2, Faithful orig p ∨ Spoilt orig p) ∧
        ((∃ p ∈ (moveDown formats f ps).2, Spoilt orig p) ↔
          (∃ p ∈ ps, Spoilt orig p) ∨ ∃ c ∈ callsFrom formats f P ps, ¬ c.Seamless) := by
  induction ps with
  | nil =>
    intro f P hf _
    refine ⟨hf, fun p hp => absurd hp List.not_mem_nil, ?_⟩
    simp [moveDown, callsFrom]
  | cons l ps ih =>
    intro f P hf hps
    have hl := hps l (List.mem_cons_self ..)
    have htl := fun p hp => hps p (List.mem_cons_of_mem _ hp)
    unfold moveDown callsFrom
    by_cases hn : l.encoder.isNull = true
    · rw [if_pos hn, if_pos hn]
      obtain ⟨hf', hps', hiff⟩ := ih f (P ++ [l]) hf htl
      refine ⟨hf', List.forall_mem_cons.mpr ⟨hl, hps'⟩, ?_⟩
      simp only [List.mem_cons, exists_eq_or_imp]
      rw [hiff, or_assoc]
    rw [if_neg hn, if_neg hn]
    cases hr : f.check formats l with
    | mk op r =>
      obtain ⟨f', l'⟩ := r
      obtain ⟨hf', hl', hsp⟩ := check_faithful formats P hf hl hr
      cases op with
      | synchronize =>
        refine ⟨hf', List.forall_mem_cons.mpr ⟨hl', htl⟩, ?_⟩
        simp only [List.mem_cons, exists_eq_or_imp, List.not_mem_nil, or_false, exists_eq_left]
        rw [hsp]
        exact or_right_comm
      | swap =>
        obtain ⟨hf'', hps', hiff⟩ := ih f' (P ++ [l']) hf' htl
        refine ⟨hf'', List.forall_mem_cons.mpr ⟨hl', hps'⟩, ?_⟩
        simp only [List.mem_cons, exists_eq_or_imp]
        rw [hsp, hiff]
        exact or_or_or_comm

/-- **The outer loop.** -/
theorem optimize_faithful (formats : ViewFormats) {ps : List (Place Draw Blit Val)}
    (h : ∀ p ∈ ps, Faithful orig p) :
    (∀ p ∈ optimize formats ps, Faithful orig p ∨ Spoilt orig p) ∧
      ((∃ p ∈ optimize formats ps, Spoilt orig p) ↔ ∃ c ∈ calls formats ps, ¬ c.Seamless) := by
  induction ps with
  | nil => simp [optimize, calls]
  | cons f ps ih =>
    obtain ⟨hps, hiff⟩ := ih fun p hp => h p (List.mem_cons_of_mem _ hp)
    have hf := h f (List.mem_cons_self ..)
    unfold optimize calls
    by_cases hm : f.encoder.isMovable = true
    · rw [if_pos hm, if_pos hm]
      obtain ⟨hf', hps', hsp⟩ := moveDown_faithful formats (optimize formats ps) f [] hf hps
      refine ⟨List.forall_mem_cons.mpr ⟨Or.inl hf', hps'⟩, ?_⟩
      have hcalls : (∃ c ∈ calls formats ps ++ callsFrom formats f [] (optimize formats ps),
          ¬ c.Seamless) ↔ (∃ c ∈ calls formats ps, ¬ c.Seamless) ∨
            ∃ c ∈ callsFrom formats f [] (optimize formats ps), ¬ c.Seamless := by
        simp only [List.mem_append, or_and_right, exists_or]
      rw [hcalls, ← hiff, ← hsp]
      simp only [List.mem_cons, exists_eq_or_imp]
      exact or_iff_right fun hs => hs.not_faithful hf'
    · rw [if_neg hm, if_neg hm, List.append_nil]
      refine ⟨List.forall_mem_cons.mpr ⟨Or.inl hf, hps⟩, ?_⟩
      simp only [List.mem_cons, exists_eq_or_imp]
      rw [hiff]
      exact or_iff_right fun hs => hs.not_faithful hf

end Visibility

/-! ## Nothing is lost -/

theorem check_carried (formats : ViewFormats) {f l f' l' : Place Draw Blit Val} {op : EncoderListOp}
    (hr : f.check formats l = (op, f', l')) :
    f'.carried ++ l'.carried = f.carried ++ l.carried := by
  cases hce : checkEncoderRelation formats f.encoder l.encoder with
  | mk op' r =>
    obtain ⟨ef, el⟩ := r
    rw [Place.check_eq formats f l hce] at hr
    split at hr
    · cases hr
      exact List.nil_append _
    split at hr
    · cases hr
      exact List.append_nil _
    · cases hr
      rfl

theorem moveDown_carried (formats : ViewFormats) (ps : List (Place Draw Blit Val)) :
    ∀ f : Place Draw Blit Val, ((moveDown formats f ps).1.carried ++
      (moveDown formats f ps).2.flatMap Place.carried).Perm
        (f.carried ++ ps.flatMap Place.carried) := by
  induction ps with
  | nil => exact fun f => List.Perm.refl _
  | cons l ps ih =>
    intro f
    have hpast : ∀ (f l : Place Draw Blit Val), ((moveDown formats f ps).1.carried ++
        (l :: (moveDown formats f ps).2).flatMap Place.carried).Perm
          (f.carried ++ l.carried ++ ps.flatMap Place.carried) := by
      intro f l
      rw [List.flatMap_cons]
      refine (List.perm_append_comm_assoc ..).trans (((ih f).append_left l.carried).trans ?_)
      rw [List.append_assoc]
      exact List.perm_append_comm_assoc ..
    unfold moveDown
    rw [List.flatMap_cons, ← List.append_assoc]
    split
    · exact hpast f l
    cases hr : f.check formats l with
    | mk op r =>
      obtain ⟨f', l'⟩ := r
      rw [← check_carried formats hr]
      cases op with
      | synchronize =>
        rw [List.append_assoc]
        exact List.Perm.refl _
      | swap => exact hpast f' l'

/-- The places of the optimised list carry every encoder once. -/
theorem optimize_carried (formats : ViewFormats) (ps : List (Place Draw Blit Val)) :
    ((optimize formats ps).flatMap Place.carried).Perm (ps.flatMap Place.carried) := by
  induction ps with
  | nil => exact List.Perm.refl _
  | cons f ps ih =>
    unfold optimize
    split
    · exact (moveDown_carried formats (optimize formats ps) f).trans (ih.append_left f.carried)
    · exact ih.append_left f.carried

theorem places_carried (es : List (Encoder Draw Blit Val)) :
    (places es).flatMap Place.carried = List.range es.length := by
  unfold places
  rw [List.flatMap_map]
  show es.zipIdx.flatMap (fun e => [e.2]) = _
  rw [← List.map_eq_flatMap, List.zipIdx_map_snd, List.range_eq_range']

/-- **The modes of the draws.** The optimised list draws what the original one draws, and every draw
runs under the mode of its own encoder if and only if every merge is seamless. -/
theorem visibility_preserved (formats : ViewFormats) (es : List (Encoder Draw Blit Val)) :
    ((optimize formats (places es)).flatMap Place.carried).Perm (List.range es.length) ∧
      ((∀ p ∈ optimize formats (places es), Faithful (encoderAt es) p) ↔
        ∀ c ∈ calls formats (places es), c.Seamless) := by
  have hplaces : ∀ p ∈ places es, Faithful (encoderAt es) p := by
    intro p hp
    obtain ⟨⟨e, i⟩, hmem, rfl⟩ := List.mem_map.mp hp
    have he : encoderAt es i = e := by
      unfold encoderAt
      rw [List.mem_zipIdx_iff_getElem?.mp hmem]
      rfl
    unfold Faithful
    rw [List.flatMap_singleton, he]
  obtain ⟨hor, hiff⟩ := optimize_faithful formats hplaces
  refine ⟨places_carried es ▸ optimize_carried formats (places es), ?_, ?_⟩
  · intro h c hc
    by_contra hs
    obtain ⟨p, hp, hsp⟩ := hiff.mpr ⟨c, hc, hs⟩
    exact hsp.not_faithful (h p hp)
  · intro h p hp
    refine (hor p hp).resolve_right fun hs => ?_
    obtain ⟨c, hc, hns⟩ := hiff.mp ⟨p, hp, hs⟩
    exact hns (h c hc)

/-! ## Recorded passes -/

/-- A pass recorded from the start of an encoder, with the number of active queries of each draw. -/
inductive Recorded :
    VisibilityResultOffsetBumpState → RenderStream Draw → List (Nat × Draw) → Prop where
  | start (s : VisibilityResultOffsetBumpState) (h : s.previousOffset = none) : Recorded s {} []
  | draw {s r ds} (n : Nat) (d : Draw) (h : Recorded s r ds) :
      Recorded (recordDraw n d s r).1 (recordDraw n d s r).2 (ds ++ [(n, d)])
  | query {s r ds} (h : Recorded s r ds) : Recorded s.getNextReadOffset.2 r ds
  | barrier {s r ds} (k : RenderBarrier) (h : Recorded s r ds) :
      Recorded s { r with cmd := r.cmd ++ [.barrier k] } ds

namespace Recorded

variable {s : VisibilityResultOffsetBumpState} {r : RenderStream Draw} {ds : List (Nat × Draw)}

theorem tracked (h : Recorded s r ds) : r.Tracked s := by
  induction h with
  | start s h => exact RenderStream.tracked_fresh h
  | draw n d h ih => exact ih.recordDraw n d
  | query h ih =>
    refine ⟨?_, ih.unused⟩
    unfold VisibilityResultOffsetBumpState.getNextReadOffset
    split <;> exact ih.mode
  | barrier k h ih =>
    refine ⟨?_, fun hu p hp => ih.unused hu p ?_⟩
    · rw [finalVisibility_append]
      exact ih.mode
    · rwa [executed_append, show executed _ [.barrier k] = ([] : List (Draw × Visibility)) from rfl,
        List.append_nil] at hp

/-- A pass leaves the counting off if no query was active at its last draw. -/
theorem final_iff (h : Recorded s r ds) :
    finalVisibility .disabled r.cmd = .disabled ↔ ∀ p ∈ ds.getLast?, p.1 = 0 := by
  induction h with
  | start s h => simp [finalVisibility]
  | @draw s r ds n d h ih =>
    rw [(RenderStream.recordDraw_executed h.tracked n d).2.1, List.getLast?_concat]
    unfold VisibilityResultOffsetBumpState.getNextWriteOffset
    by_cases hn : n = 0
    · simp [hn, Visibility.ofOffset]
    · simp [hn, Visibility.ofOffset, Visibility.counting_ne_disabled]
  | query h ih => exact ih
  | barrier k h ih =>
    rw [finalVisibility_append]
    exact ih

theorem recordDraw_cmd (n : Nat) (d : Draw) (s : VisibilityResultOffsetBumpState)
    (r : RenderStream Draw) : (recordDraw n d s r).2.cmd = r.cmd ++
      if (s.getNextWriteOffset (n != 0)).1 = s.previousOffset then [.draw d]
      else [.setVisibilityMode (.ofOffset (s.getNextWriteOffset (n != 0)).1), .draw d] := by
  have hprev : (s.getNextWriteOffset (n != 0)).2.previousOffset = s.previousOffset := by
    unfold VisibilityResultOffsetBumpState.getNextWriteOffset
    split <;> rfl
  unfold recordDraw bumpVisibilityResultOffset VisibilityResultOffsetBumpState.tryGetNextWriteOffset
  generalize s.getNextWriteOffset (n != 0) = w at hprev ⊢
  obtain ⟨offset, s'⟩ := w
  dsimp only at hprev ⊢
  rw [hprev]
  by_cases ho : offset = s.previousOffset
  · rw [if_pos ho, if_pos ho]
  · rw [if_neg ho, if_neg ho]
    exact List.append_assoc ..

/-- How a pass begins: without a draw it is open, and the first draw sets the mode or leads. -/
theorem opening (h : Recorded s r ds) :
    (ds = [] → s.previousOffset = none ∧ ∀ cs, leading (r.cmd ++ cs) = leading cs) ∧
      ∀ p ∈ ds.head?, (p.1 = 0 → leading r.cmd ≠ []) ∧
        (p.1 ≠ 0 → ∀ cs, leading (r.cmd ++ cs) = []) := by
  induction h with
  | start s h => exact ⟨fun _ => ⟨h, fun cs => rfl⟩, fun p hp => nomatch hp⟩
  | @draw s r ds n d h ih =>
    refine ⟨fun hnil => absurd hnil (List.append_ne_nil_of_right_ne_nil _ (List.cons_ne_nil _ _)),
      fun p hp => ?_⟩
    cases ds with
    | nil =>
      obtain ⟨hprev, hopen⟩ := ih.1 rfl
      cases hp
      rw [recordDraw_cmd, hprev]
      dsimp only
      refine ⟨fun hn => ?_, fun hn cs => ?_⟩
      · rw [hopen, hn]
        exact List.cons_ne_nil d []
      · rw [List.append_assoc, hopen, bne_iff_ne.mpr hn, if_neg (fun h => nomatch h)]
        rfl
    | cons q ds =>
      have hq := ih.2 p hp
      rw [recordDraw_cmd]
      refine ⟨fun hn => leading_append_ne (hq.1 hn) _, fun hn cs => ?_⟩
      rw [List.append_assoc]
      exact hq.2 hn _
  | @query s r ds h ih =>
    have hprev : s.getNextReadOffset.2.previousOffset = s.previousOffset := by
      unfold VisibilityResultOffsetBumpState.getNextReadOffset
      split <;> rfl
    rw [hprev]
    exact ih
  | barrier k h ih =>
    refine ⟨fun hnil => ⟨(ih.1 hnil).1, fun cs => ?_⟩, fun p hp => ⟨fun hn => ?_, fun hn cs => ?_⟩⟩
    · rw [List.append_assoc, (ih.1 hnil).2]
      rfl
    · exact leading_append_ne ((ih.2 p hp).1 hn) _
    · rw [List.append_assoc]
      exact (ih.2 p hp).2 hn _

/-- A pass sets its own mode before the first draw if a query was active at that draw. -/
theorem leading_iff (h : Recorded s r ds) : leading r.cmd = [] ↔ ∀ p ∈ ds.head?, p.1 ≠ 0 := by
  obtain ⟨hnil, hcons⟩ := h.opening
  constructor
  · exact fun hl p hp hn => (hcons p hp).1 hn hl
  · intro hp
    cases ds with
    | nil => exact (congrArg leading (List.append_nil r.cmd)).symm.trans ((hnil rfl).2 [])
    | cons q ds =>
      exact (congrArg leading (List.append_nil r.cmd)).symm.trans ((hcons q rfl).2 (hp q rfl) [])

end Recorded

/-! ## A query that ends between two passes -/

/-- A pass on one colour view that loads what it finds. -/
def streamPass (id : Nat) (r : RenderStream Unit) : RenderEncoderData Unit Unit :=
  { colorPass ⟨0, 0⟩ id ∅ with toRenderStream := r }

/-- A pass with one draw while a query is active. -/
def queriedDraw : VisibilityResultOffsetBumpState × RenderStream Unit :=
  recordDraw 1 () (VisibilityResultOffsetBumpState.beginEncoder {}) {}

/-- The query ends, and the next pass draws without one. -/
def plainDraw : VisibilityResultOffsetBumpState × RenderStream Unit :=
  recordDraw 0 () queriedDraw.1.getNextReadOffset.2.endEncoder.beginEncoder {}

/-- The two passes have the same attachments. -/
def queryEnds : List (Encoder Unit Unit Unit) :=
  [.render (streamPass 256 queriedDraw.2), .render (streamPass 258 plainDraw.2)]

/-- The draw of the second pass counts nowhere when it is alone, and into the slot of the first pass
in the merged list. -/
theorem visibility_lost :
    drawsOf (encoderAt queryEnds 1) = [((), .disabled)] ∧
      ∃ p ∈ optimize oneFormat (places queryEnds), p.carried = [0, 1] ∧
        drawsOf p.encoder = [((), .counting 0), ((), .counting 0)] ∧
        ¬ Faithful (encoderAt queryEnds) p :=
  ⟨rfl, ⟨.render (mergeRender (streamPass 256 queriedDraw.2) (streamPass 258 plainDraw.2)), [0, 1]⟩,
    List.mem_of_getElem? (i := 1) rfl, rfl, rfl, fun h => nomatch h⟩

/-! ## Barriers in a merged pass -/

/-- An access of a draw to a resource that is not an attachment of its pass. -/
structure DrawAccess extends RenderAccess where
  resource : Nat

/-- Two accesses that have to keep their order. -/
def DrawAccess.Conflicts (a₀ a₁ : DrawAccess) : Prop :=
  a₀.resource = a₁.resource ∧ (a₀.flags.write = true ∨ a₁.flags.write = true)

section Barriers

variable {r₀ r₁ : RenderEncoderData (List DrawAccess) Val}

/-- The fences that the accesses of a stage update. -/
def RenderEncoderData.updatesAt (r : RenderEncoderData Draw Val) : RenderStage → FenceSet
  | .preRaster => r.fenceUpdateVertex
  | .fragment => r.fenceUpdate

/-- The fences that a stage waits for. -/
def RenderEncoderData.waitsAt (r : RenderEncoderData Draw Val) : RenderStage → FenceSet
  | .preRaster => r.fenceWaitVertex
  | .fragment => r.fenceWait

/-- `a` is an access of the `i`th command of the stream. -/
def AccessAt (cs : List (RenderCommand (List DrawAccess))) (i : Nat) (a : DrawAccess) : Prop :=
  ∃ d, cs[i]? = some (.draw d) ∧ a ∈ d

/-- Every access of `r₁` that conflicts with one of `r₀` waits for the fence of that one. -/
def WaitsForConflicts (r₀ r₁ : RenderEncoderData (List DrawAccess) Val) : Prop :=
  ∀ i j a₀ a₁, AccessAt r₀.cmd i a₀ → AccessAt r₁.cmd j a₁ → a₀.Conflicts a₁ →
    ∃ x : Nat, x ∈ r₀.updatesAt a₀.stage ∧ x ∈ r₁.waitsAt a₁.stage

/-- A barrier of the stream between `i` and `j` orders the first access before the second. -/
def BarrierBetween (cs : List (RenderCommand (List DrawAccess))) (i j : Nat) (a₀ a₁ : DrawAccess) :
    Prop :=
  ∃ n k, i < n ∧ n < j ∧ cs[n]? = some (.barrier k) ∧ k.Covers a₀.stage a₁.stage

/-- Conflicting accesses on either side of `boundary` have a barrier between them. -/
def KeepsOrder (cs : List (RenderCommand (List DrawAccess))) (boundary : Nat) : Prop :=
  ∀ i j a₀ a₁, i < boundary → boundary ≤ j → AccessAt cs i a₀ → AccessAt cs j a₁ →
    a₀.Conflicts a₁ → BarrierBetween cs i j a₀ a₁

/-- The barrier was recorded for other accesses: in `r₀` after the first access, or in `r₁` before
the second one. -/
def BarrierRecorded (r₀ r₁ : RenderEncoderData (List DrawAccess) Val) (i j : Nat)
    (a₀ a₁ : DrawAccess) : Prop :=
  ∃ k : RenderBarrier, k.Covers a₀.stage a₁.stage ∧
    ((∃ n, i < n ∧ r₀.cmd[n]? = some (.barrier k)) ∨ ∃ n, n < j ∧ r₁.cmd[n]? = some (.barrier k))

/-- The merged stream is one after the other, with bindings of argument buffers before each. -/
theorem mergeCommands_eq (r₀ r₁ : RenderEncoderData Draw Val) :
    ∃ pre mid, mergeCommands r₀ r₁ = pre ++ r₀.cmd ++ mid ++ r₁.cmd ∧
      ∀ c ∈ pre ++ mid, ∃ stage buffer index, c = .setBuffer stage buffer index := by
  unfold mergeCommands
  split
  · next hempty =>
    refine ⟨[], [], ?_, fun c hc => absurd hc List.not_mem_nil⟩
    rw [List.isEmpty_iff.mp hempty]
    rfl
  split
  · refine ⟨_, _, rfl, fun c hc => ?_⟩
    rcases List.mem_append.mp hc with hc | hc <;> exact mem_bindings hc
  · exact ⟨[], [], by simp, fun c hc => absurd hc List.not_mem_nil⟩

section Merged

variable {pre mid cs₀ cs₁ : List (RenderCommand (List DrawAccess))} {a a₀ a₁ : DrawAccess}

/-- A command of the first part that sets no buffer is one of `cs₀`. -/
theorem getElem?_merged {c : RenderCommand (List DrawAccess)}
    (hset : ∀ c ∈ pre ++ mid, ∃ stage buffer index, c = .setBuffer stage buffer index)
    (hc : ∀ stage buffer index, c ≠ .setBuffer stage buffer index) {i : Nat}
    (hi : i < (pre ++ cs₀ ++ mid).length) :
    (pre ++ cs₀ ++ mid ++ cs₁)[i]? = some c ↔ ∃ i', i = pre.length + i' ∧ cs₀[i']? = some c := by
  have hnot : ∀ {ds : List (RenderCommand (List DrawAccess))} {n : Nat},
      (∀ c ∈ ds, c ∈ pre ++ mid) → ds[n]? ≠ some c := by
    intro ds n hds hn
    obtain ⟨stage, buffer, index, h⟩ := hset c (hds c (List.mem_of_getElem? hn))
    exact hc stage buffer index h
  rw [List.getElem?_append_left hi]
  constructor
  · intro h
    by_cases hpre : i < pre.length
    · rw [List.append_assoc, List.getElem?_append_left hpre] at h
      exact absurd h (hnot fun c hc => List.mem_append_left _ hc)
    by_cases hcs : i < (pre ++ cs₀).length
    · rw [List.getElem?_append_left hcs, List.getElem?_append_right (Nat.le_of_not_lt hpre)] at h
      exact ⟨i - pre.length, (Nat.add_sub_cancel' (Nat.le_of_not_lt hpre)).symm, h⟩
    · rw [List.getElem?_append_right (Nat.le_of_not_lt hcs)] at h
      exact absurd h (hnot fun c hc => List.mem_append_right _ hc)
  · rintro ⟨i', rfl, h⟩
    have hlt : i' < cs₀.length := (List.getElem?_eq_some_iff.mp h).1
    rw [List.getElem?_append_left (by rw [List.length_append]; omega),
      List.getElem?_append_right (Nat.le_add_right _ _), Nat.add_sub_cancel_left]
    exact h

theorem draw_ne (d : List DrawAccess) (stage : SetBufferStage) (buffer index : Nat) :
    (.draw d : RenderCommand (List DrawAccess)) ≠ .setBuffer stage buffer index :=
  fun h => nomatch h

theorem barrier_ne (k : RenderBarrier) (stage : SetBufferStage) (buffer index : Nat) :
    (.barrier k : RenderCommand (List DrawAccess)) ≠ .setBuffer stage buffer index :=
  fun h => nomatch h

/-- An access of the first part. -/
theorem accessAt_left
    (hset : ∀ c ∈ pre ++ mid, ∃ stage buffer index, c = .setBuffer stage buffer index) {i : Nat}
    (hi : i < (pre ++ cs₀ ++ mid).length) :
    AccessAt (pre ++ cs₀ ++ mid ++ cs₁) i a ↔ ∃ i', i = pre.length + i' ∧ AccessAt cs₀ i' a := by
  unfold AccessAt
  constructor
  · rintro ⟨d, hd, ha⟩
    obtain ⟨i', hi', hd'⟩ := (getElem?_merged hset (draw_ne d) hi).mp hd
    exact ⟨i', hi', d, hd', ha⟩
  · rintro ⟨i', hi', d, hd', ha⟩
    exact ⟨d, (getElem?_merged hset (draw_ne d) hi).mpr ⟨i', hi', hd'⟩, ha⟩

/-- A command of the second part. -/
theorem getElem?_right (j : Nat) :
    (pre ++ cs₀ ++ mid ++ cs₁)[(pre ++ cs₀ ++ mid).length + j]? = cs₁[j]? := by
  rw [List.getElem?_append_right (Nat.le_add_right _ _), Nat.add_sub_cancel_left]

theorem barrierBetween_merged
    (hset : ∀ c ∈ pre ++ mid, ∃ stage buffer index, c = .setBuffer stage buffer index) {i j : Nat}
    (hi : i < cs₀.length) :
    BarrierBetween (pre ++ cs₀ ++ mid ++ cs₁) (pre.length + i) ((pre ++ cs₀ ++ mid).length + j)
        a₀ a₁ ↔
      ∃ k : RenderBarrier, k.Covers a₀.stage a₁.stage ∧
        ((∃ n, i < n ∧ cs₀[n]? = some (.barrier k)) ∨ ∃ n, n < j ∧ cs₁[n]? =
          some (.barrier k)) := by
  have hlen : (pre ++ cs₀ ++ mid).length = pre.length + cs₀.length + mid.length := by
    rw [List.length_append, List.length_append]
  unfold BarrierBetween
  constructor
  · rintro ⟨n, k, hin, hnj, hn, hk⟩
    refine ⟨k, hk, ?_⟩
    by_cases hlt : n < (pre ++ cs₀ ++ mid).length
    · obtain ⟨n', rfl, hn'⟩ := (getElem?_merged hset (barrier_ne k) hlt).mp hn
      exact Or.inl ⟨n', by omega, hn'⟩
    · obtain ⟨m, rfl⟩ := Nat.exists_eq_add_of_le (Nat.le_of_not_lt hlt)
      rw [getElem?_right] at hn
      exact Or.inr ⟨m, by omega, hn⟩
  · rintro ⟨k, hk, ⟨n, hin, hn⟩ | ⟨n, hnj, hn⟩⟩
    · have hlt : n < cs₀.length := (List.getElem?_eq_some_iff.mp hn).1
      refine ⟨pre.length + n, k, by omega, by omega, ?_, hk⟩
      exact (getElem?_merged hset (barrier_ne k) (by omega)).mpr ⟨n, rfl, hn⟩
    · refine ⟨(pre ++ cs₀ ++ mid).length + n, k, by omega, by omega, ?_, hk⟩
      rw [getElem?_right]
      exact hn

end Merged

/-- A merged stream keeps the order if and only if the barriers of its parts happen to do. -/
theorem keepsOrder_merged (r₀ r₁ : RenderEncoderData (List DrawAccess) Val) :
    KeepsOrder (mergeCommands r₀ r₁) ((mergeCommands r₀ r₁).length - r₁.cmd.length) ↔
      ∀ i j a₀ a₁, AccessAt r₀.cmd i a₀ → AccessAt r₁.cmd j a₁ → a₀.Conflicts a₁ →
        BarrierRecorded r₀ r₁ i j a₀ a₁ := by
  obtain ⟨pre, mid, heq, hset⟩ := mergeCommands_eq r₀ r₁
  have hbound : (mergeCommands r₀ r₁).length - r₁.cmd.length = (pre ++ r₀.cmd ++ mid).length := by
    rw [heq, List.length_append, Nat.add_sub_cancel]
  rw [hbound, heq]
  have hlen : (pre ++ r₀.cmd ++ mid).length = pre.length + r₀.cmd.length + mid.length := by
    rw [List.length_append, List.length_append]
  have hlt : ∀ {i a}, AccessAt r₀.cmd i a → i < r₀.cmd.length := fun ⟨_, hd, _⟩ =>
    (List.getElem?_eq_some_iff.mp hd).1
  constructor
  · intro h i j a₀ a₁ h₀ h₁ hc
    have hi := hlt h₀
    have hleft : AccessAt (pre ++ r₀.cmd ++ mid ++ r₁.cmd) (pre.length + i) a₀ :=
      (accessAt_left hset (by omega)).mpr ⟨i, rfl, h₀⟩
    have hright : AccessAt (pre ++ r₀.cmd ++ mid ++ r₁.cmd)
        ((pre ++ r₀.cmd ++ mid).length + j) a₁ := by
      unfold AccessAt
      rw [getElem?_right]
      exact h₁
    exact (barrierBetween_merged hset hi).mp
      (h _ _ a₀ a₁ (by omega) (Nat.le_add_right _ _) hleft hright hc)
  · intro h i j a₀ a₁ hi hj h₀ h₁ hc
    obtain ⟨i', rfl, h₀'⟩ := (accessAt_left hset hi).mp h₀
    obtain ⟨j', rfl⟩ := Nat.exists_eq_add_of_le hj
    unfold AccessAt at h₁
    rw [getElem?_right] at h₁
    exact (barrierBetween_merged hset (hlt h₀')).mpr (h i' j' a₀ a₁ h₀' h₁ hc)

/-- Two passes that `checkEncoderRelation` does not merge wrongly, by their attachments, their
fences or their accesses: the attachments do not match, the second pass waits at its pre-raster
stage for the fragment stage of the first one, or no access of the one conflicts with one of the
other. -/
def KeptApart (r₀ r₁ : RenderEncoderData (List DrawAccess) Val) : Prop :=
  isEncoderSignatureMatched r₀ r₁ = false ∨
    (∃ x : Nat, x ∈ r₀.fenceUpdate ∧ x ∈ r₁.fenceWaitVertex) ∨
    ∀ i j a₀ a₁, AccessAt r₀.cmd i a₀ → AccessAt r₁.cmd j a₁ → ¬a₀.Conflicts a₁

/-- The two passes are not merged, or the merged one keeps the order. -/
def OrderKept (Blit : Type) (formats : ViewFormats)
    (r₀ r₁ : RenderEncoderData (List DrawAccess) Val) : Prop :=
  ∀ r : RenderEncoderData (List DrawAccess) Val,
    (checkEncoderRelation formats (.render r₀ : Encoder (List DrawAccess) Blit Val)
      (.render r₁)).2 = (.null, .render r) →
    KeepsOrder r.cmd (r.cmd.length - r₁.cmd.length)

/-- The guard, in terms of attachments and fences. -/
theorem canMergeRender_eq_false_iff (r₀ r₁ : RenderEncoderData Draw Val) :
    canMergeRender r₀ r₁ = false ↔ isEncoderSignatureMatched r₀ r₁ = false ∨
      ∃ x : Nat, x ∈ r₀.fenceUpdate ∧ x ∈ r₁.fenceWaitVertex := by
  unfold canMergeRender
  rw [Bool.and_eq_false_iff, Bool.not_eq_false', FenceSet.intersectedWith_iff]
  exact or_congr_right (exists_congr fun x => and_comm)

theorem orderKept_iff (formats : ViewFormats) (r₀ r₁ : RenderEncoderData (List DrawAccess) Val) :
    OrderKept Blit formats r₀ r₁ ↔ canMergeRender r₀ r₁ = false ∨
      ∀ i j a₀ a₁, AccessAt r₀.cmd i a₀ → AccessAt r₁.cmd j a₁ → a₀.Conflicts a₁ →
        BarrierRecorded r₀ r₁ i j a₀ a₁ := by
  have hcheck : checkEncoderRelation formats (.render r₀ : Encoder (List DrawAccess) Blit Val)
      (.render r₁) = checkRenderRender r₀ r₁ := rfl
  unfold OrderKept
  rw [hcheck]
  unfold checkRenderRender
  cases hm : canMergeRender r₀ r₁ with
  | false => simp
  | true =>
    rw [if_pos rfl, or_iff_right (by decide), ← keepsOrder_merged]
    refine ⟨fun h => h _ rfl, fun h r hr => ?_⟩
    cases hr
    exact h

/-- The guard keeps a fragment stage apart from a later pre-raster stage that waits for it. -/
theorem keptApart_of_backward {r₀ r₁ : RenderEncoderData (List DrawAccess) Val}
    (hwaits : WaitsForConflicts r₀ r₁) {i j : Nat} {a₀ a₁ : DrawAccess} (h₀ : AccessAt r₀.cmd i a₀)
    (h₁ : AccessAt r₁.cmd j a₁) (hc : a₀.Conflicts a₁)
    (hback : ¬a₀.stage.NotAfter a₁.stage) : KeptApart r₀ r₁ := by
  obtain ⟨x, hx₀, hx₁⟩ := hwaits i j a₀ a₁ h₀ h₁ hc
  unfold RenderStage.NotAfter at hback
  push Not at hback
  have hs₀ : a₀.stage = .fragment := by
    cases hs : a₀.stage with
    | fragment => rfl
    | preRaster => exact absurd hs hback.1
  have hs₁ : a₁.stage = .preRaster := by
    cases hs : a₁.stage with
    | preRaster => rfl
    | fragment => exact absurd hs hback.2
  rw [hs₀] at hx₀
  rw [hs₁] at hx₁
  exact Or.inr (Or.inl ⟨x, hx₀, hx₁⟩)

/-- **The synchronisation inside a merged pass.** Two passes stay ordered when they are kept apart:
because of their attachments, because the second one waits at its pre-raster stage for the fragment
stage of the first, which it does when two such accesses conflict, or because no accesses conflict.
Passes that recorded no barrier of their own do so in no other case. -/
theorem merge_keeps_order (Blit : Type) (formats : ViewFormats)
    (r₀ r₁ : RenderEncoderData (List DrawAccess) Val) :
    (KeptApart r₀ r₁ → OrderKept Blit formats r₀ r₁) ∧
    (WaitsForConflicts r₀ r₁ → ∀ i j a₀ a₁, AccessAt r₀.cmd i a₀ → AccessAt r₁.cmd j a₁ →
      a₀.Conflicts a₁ → ¬a₀.stage.NotAfter a₁.stage → KeptApart r₀ r₁) ∧
    ((∀ k, .barrier k ∉ r₀.cmd ∧ .barrier k ∉ r₁.cmd) →
      OrderKept Blit formats r₀ r₁ → KeptApart r₀ r₁) := by
  rw [orderKept_iff, canMergeRender_eq_false_iff]
  refine ⟨?_, fun hwaits i j a₀ a₁ => keptApart_of_backward hwaits, fun hbarriers h => ?_⟩
  · rintro (h | h | h)
    · exact Or.inl (Or.inl h)
    · exact Or.inl (Or.inr h)
    · exact Or.inr fun i j a₀ a₁ h₀ h₁ hc => absurd hc (h i j a₀ a₁ h₀ h₁)
  · rcases h with (h | h) | h
    · exact Or.inl h
    · exact Or.inr (Or.inl h)
    · refine Or.inr (Or.inr fun i j a₀ a₁ h₀ h₁ hc => ?_)
      -- without a recorded barrier no pair may conflict
      obtain ⟨k, -, ⟨n, -, hn⟩ | ⟨n, -, hn⟩⟩ := h i j a₀ a₁ h₀ h₁ hc
      · exact (hbarriers k).1 (List.mem_of_getElem? hn)
      · exact (hbarriers k).2 (List.mem_of_getElem? hn)

end Barriers

/-! ## A fragment write and a fragment read -/

/-- A pass on one colour view with commands of its own. -/
def accessPass (id : Nat) (wait : FenceSet) (cmd : List (RenderCommand (List DrawAccess))) :
    RenderEncoderData (List DrawAccess) Unit where
  colors :=
    [{ attachment := some ⟨0, 0⟩, loadAction := .load, storeAction := .store, clearColor := () }]
  depth := { loadAction := .dontCare, storeAction := .dontCare, clearValue := () }
  stencil := { loadAction := .dontCare, storeAction := .dontCare, clearValue := () }
  fenceWait := wait
  fenceUpdate := .single (id + 1)
  fenceUpdateVertex := .single id
  cmd := cmd

/-- A draw whose fragment stage writes an unordered access view. -/
def fragmentWrite : DrawAccess where
  resource := 7
  stage := .fragment
  flags := ⟨true, true⟩

/-- A draw whose fragment stage reads it. -/
def fragmentRead : DrawAccess where
  resource := 7
  stage := .fragment
  flags := ⟨false, false⟩

/-- The pass with the write. -/
def writePass : RenderEncoderData (List DrawAccess) Unit :=
  accessPass 256 ∅ [.draw [fragmentWrite]]

/-- A pass with the read, which waits for the fragment fence of the write. -/
def readPass : RenderEncoderData (List DrawAccess) Unit :=
  accessPass 258 (.single 257) [.draw [fragmentRead]]

/-- A fragment read of another resource. -/
def otherRead : DrawAccess := { fragmentRead with resource := 8 }

/-- A pre-raster read of the same one. -/
def preRasterRead : DrawAccess := { fragmentRead with stage := .preRaster }

/-- The pass with that read, which waits for the fragment fence of the write there. -/
def preRasterPass : RenderEncoderData (List DrawAccess) Unit :=
  { accessPass 258 ∅ [.draw [preRasterRead]] with fenceWaitVertex := .single 257 }

theorem accessAt_singleton {a b : DrawAccess} {i : Nat} (h : AccessAt [.draw [b]] i a) : a = b := by
  obtain ⟨d, hd, ha⟩ := h
  obtain ⟨hi, hget⟩ := List.getElem?_eq_some_iff.mp hd
  cases Nat.lt_one_iff.mp hi
  cases hget
  exact List.mem_singleton.mp ha

/-- A pre-raster read after a fragment write keeps the passes apart, and passes without a shared
resource stay ordered. -/
theorem merge_keeps_order_passes :
    OrderKept Unit oneFormat writePass (accessPass 258 ∅ [.draw [otherRead]]) ∧
      KeptApart writePass preRasterPass := by
  constructor
  · refine (merge_keeps_order Unit oneFormat writePass _).1 (Or.inr (Or.inr ?_))
    intro i j a₀ a₁ h₀ h₁ hc
    rw [accessAt_singleton h₀, accessAt_singleton h₁] at hc
    exact absurd hc.1 (by decide)
  · obtain ⟨hkept, hback, honly⟩ := merge_keeps_order Unit oneFormat writePass preRasterPass
    refine honly (fun k => ⟨by simp [writePass, accessPass],
      by simp [preRasterPass, accessPass]⟩) (hkept (hback ?_ 0 0 fragmentWrite preRasterRead
        ⟨_, rfl, List.mem_singleton.mpr rfl⟩ ⟨_, rfl, List.mem_singleton.mpr rfl⟩
        ⟨rfl, Or.inl rfl⟩ fun h => h.elim (by decide) (by decide)))
    intro i j a₀ a₁ h₀ h₁ _
    rw [accessAt_singleton h₀, accessAt_singleton h₁]
    exact ⟨257, by decide, (FenceSet.mem_single 257 257).mpr rfl⟩

/-- A fragment read after a fragment write is merged all the same, and nothing orders the two. -/
theorem merge_loses_barrier :
    WaitsForConflicts writePass readPass ∧
      (checkEncoderRelation oneFormat (.render writePass : Encoder (List DrawAccess) Unit Unit)
        (.render readPass)).2 = (.null, .render (mergeRender writePass readPass)) ∧
      ¬ OrderKept Unit oneFormat writePass readPass := by
  refine ⟨fun i j a₀ a₁ h₀ h₁ _ => ?_, rfl, fun h => ?_⟩
  · rw [accessAt_singleton h₀, accessAt_singleton h₁]
    exact ⟨257, by decide, (FenceSet.mem_single 257 257).mpr rfl⟩
  · have hconflict : fragmentWrite.Conflicts fragmentRead := ⟨rfl, Or.inl rfl⟩
    obtain ⟨n, k, h0, h1, hn, hk⟩ := h _ rfl 0 1 fragmentWrite fragmentRead (by decide) (by decide)
      ⟨_, rfl, List.mem_singleton.mpr rfl⟩ ⟨_, rfl, List.mem_singleton.mpr rfl⟩ hconflict
    omega

end Dxmt
