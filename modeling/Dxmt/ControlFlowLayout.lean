import Dxmt.ControlFlowBlocks

/-!
# Where the statements of a shader stand in its blocks

By induction on the statements: behind them the blocks that are open are those that were
(`Built.frame`), the switch on top has their labels (`Built.kept`), and whatever is read later, the
statements have their layout in the final blocks (`Built.layout`).
-/

namespace Dxmt

namespace ControlFlow

open Structured

namespace Reader

variable {ι : Type} {X : Nat → Prop} {ret : Nat} {r r' r'' : Reader ι}

theorem run_append (r : Reader ι) (ops ops' : List (Op ι)) :
    r.run (ops ++ ops') = (r.run ops).bind fun r' => r'.run ops' :=
  List.foldlM_append

theorem run_cons (r : Reader ι) (op : Op ι) (ops : List (Op ι)) :
    r.run (op :: ops) = (r.step op).bind fun r' => r'.run ops :=
  List.foldlM_cons

variable (X ret) in
/-- Instructions that are read and leave the blocks of `L` as they are. -/
structure Read (L : List Nat) (ops : List (Op ι)) (r r' : Reader ι) : Prop where
  run : r.run ops = some r'
  moves : Moves X ret r r'
  kept : ∀ b ∈ L, r'.allBb[b]? = r.allBb[b]?

variable (X ret) in
/-- Statements that are read, with the blocks of their labels. -/
structure Built (code : Body ι) (r r' : Reader ι) (T : List (Option (BitVec 32) × Nat)) :
    Prop where
  run : r.run code.ops = some r'
  moves : Moves X ret r r'
  frame : r'.frame = r.frame
  labels : T.map Prod.fst = code.labels
  kept : ∀ b ∈ r.switches, r'.allBb[b]? =
    if r.switchCtx.head? = some (some b) then r.allBb[b]?.map (addLabels T) else r.allBb[b]?
  layout : ∀ B, Final X r' B → Layout (B.map BasicBlock.node) (translation r.phase) (r.exits ret)
    code r.place r'.place T

variable {code rest : Body ι} {ops : List (Op ι)} {T : List (Option (BitVec 32) × Nat)}

theorem exits_congr (ret : Nat) (hbreak : r'.breakTarget = r.breakTarget)
    (hcontinue : r'.continueTarget = r.continueTarget) : r'.exits ret = r.exits ret := by
  unfold exits
  rw [hbreak, hcontinue]

/-- The layout of statements in another block. -/
theorem Built.layout_at (h : Built X ret code r r' T) {B : List (BasicBlock ι)} (hB : Final X r' B)
    {phase : BitVec 32} {x : Jump → Nat} {p : Option (Nat × Nat)} (hphase : r.phase = phase)
    (hexits : r.exits ret = x) (hplace : r.place = p) :
    Layout (B.map BasicBlock.node) (translation phase) x code p r'.place T := by
  subst hphase hexits hplace
  exact h.layout B hB

theorem Built.eq_nil (h : Built X ret code r r' T) (hlabels : code.labels = []) : T = [] :=
  List.map_eq_nil_iff.mp (h.labels.trans hlabels)

theorem Read.trans {L : List Nat} {ops' : List (Op ι)} (h : Read X ret L ops r r')
    (h' : Read X ret L ops' r' r'') : Read X ret L (ops ++ ops') r r'' where
  run := by rw [run_append, h.run, Option.bind_some, h'.run]
  moves := h.moves.trans h'.moves
  kept b hb := (h'.kept b hb).trans (h.kept b hb)

theorem Leaves.read {target : BasicBlockTarget ι} {new : List (BasicBlock ι)} {ahead L : List Nat}
    (h : Inv X ret r) (hl : Leaves r r' target new ahead) {op : Op ι} (hstep : r.step op = some r')
    (hL : L ⊆ r.switches) : Read X ret L [op] r r' where
  run := by rw [run_cons, hstep]; rfl
  moves := hl.moves h
  kept := by
    intro b hb
    have hmem : b ∈ r.opened := List.mem_append_right _ (hL hb)
    exact hl.kept (fun hc => (h.current b hc).2.1 hmem) (h.lt b hmem)

theorem push_read (h : Inv X ret r) {is : List (Instruction ι)} {op : Op ι}
    (hstep : r.step op = some (r.push is)) : Read X ret r.switches [op] r (r.push is) where
  run := by rw [run_cons, hstep]; rfl
  moves := push_moves h is
  kept := by
    intro b hb
    have hne : r.current ≠ some b := fun hc =>
      (h.current b hc).2.1 (List.mem_append_right _ hb)
    exact (getElem?_modify ..).trans (if_neg hne)

theorem openSwitch_read (h : Inv X ret r) {b : Nat} (hb : r.current = some b) (v : ι) :
    Read X ret r.switches [.switch_ v] r (r.openSwitch (r.readCondition v)) where
  run := rfl
  moves := openSwitch_moves h hb
  kept := by
    intro c hc
    have hmem : c ∈ r.opened := List.mem_append_right _ hc
    have hne : b ≠ c := fun hbc => (h.current b hb).2.1 (hbc ▸ hmem)
    rw [openSwitch_getElem?_of_ne hb hne, List.getElem?_append_left (h.lt c hmem)]

/-- Statements without labels leave all switches as they are, others those below the top. -/
theorem Built.read (h : Built X ret code r r' T) {L : List Nat} (hL : L ⊆ r.switches)
    (hT : code.labels = [] ∨ ∀ b ∈ L, r.switchCtx.head? ≠ some (some b)) :
    Read X ret L code.ops r r' where
  run := h.run
  moves := h.moves
  kept := by
    intro b hb
    rw [h.kept b (hL hb)]
    obtain hT | hT := hT
    · obtain rfl := h.eq_nil hT
      split
      · exact Option.map_id' ..
      · rfl
    · rw [if_neg (hT b hb)]

/-- Statements are their first instructions, behind which the same blocks are open, and the rest. -/
theorem Built.cons (h : Read X ret r.switches ops r r') (hframe : r'.frame = r.frame)
    (hrest : Built X ret rest r' r'' T) (hops : code.ops = ops ++ rest.ops)
    (hlabels : code.labels = rest.labels)
    (hlayout : ∀ B, Final X r' B → Layout (B.map BasicBlock.node) (translation r.phase)
      (r.exits ret) rest r'.place r''.place T →
        Layout (B.map BasicBlock.node) (translation r.phase) (r.exits ret) code r.place r''.place
          T) :
    Built X ret code r r'' T where
  run := by rw [hops, run_append, h.run, Option.bind_some, hrest.run]
  moves := h.moves.trans hrest.moves
  frame := hrest.frame.trans hframe
  labels := hrest.labels.trans hlabels.symm
  kept := by
    intro b hb
    have hctx : r'.switchCtx = r.switchCtx := (congrArg switchCtx hframe :)
    have hkept := hrest.kept b (by rw [mem_switches, hctx]; exact mem_switches.mp hb)
    rw [hctx, h.kept b hb] at hkept
    exact hkept
  layout := by
    intro B hB
    have hexits := exits_congr ret (congrArg breakTarget hframe :)
      (congrArg continueTarget hframe :)
    exact hlayout B (hrest.moves.final B hB)
      (hrest.layout_at hB (congrArg Reader.phase hframe :) hexits rfl)

/-- What statements need of the blocks that are open. -/
structure Fits (place : Place) (live : Bool) (r : Reader ι) : Prop where
  breakable : place.breakable = true → r.breakTarget ≠ []
  continuable : place.continuable = true → r.continueTarget ≠ []
  nested : place.nested = true → (r.breakTarget.isEmpty && r.endif.isEmpty) = false
  labels : place.labels = true → r.switchCtx ≠ []
  live : live = true → r.current.isSome

theorem Fits.congr {place : Place} {live live' : Bool} (h : Fits place live r)
    (hframe : r'.frame = r.frame) (hlive : live' = true → r'.current.isSome) :
    Fits place live' r' := by
  have hbreak : r'.breakTarget = r.breakTarget := (congrArg breakTarget hframe :)
  have hcontinue : r'.continueTarget = r.continueTarget := (congrArg continueTarget hframe :)
  have hendif : r'.endif = r.endif := (congrArg endif hframe :)
  have hswitch : r'.switchCtx = r.switchCtx := (congrArg switchCtx hframe :)
  refine ⟨fun hp => hbreak ▸ h.breakable hp, fun hp => hcontinue ▸ h.continuable hp, fun hp => ?_,
    fun hp => hswitch ▸ h.labels hp, hlive⟩
  rw [hbreak, hendif]
  exact h.nested hp

theorem Fits.canExit {place : Place} {live : Bool} (h : Fits place live r) {j : Jump}
    (hj : j = .ret ∨ place.allows j = true) : r.CanExit j := by
  cases j with
  | brk => exact h.breakable (hj.resolve_left nofun)
  | cont => exact h.continuable (hj.resolve_left nofun)
  | ret => exact trivial

/-- The statements under a condition. -/
theorem Fits.guarded {place : Place} {live : Bool} (h : Fits place live r) {b : Nat} {bs : List Nat}
    (hframe : r'.frame = { r.frame with endif := b :: bs }) (hcurrent : r'.current.isSome) :
    Fits { place with nested := true, labels := false } true r' := by
  have hbreak : r'.breakTarget = r.breakTarget := (congrArg breakTarget hframe :)
  have hcontinue : r'.continueTarget = r.continueTarget := (congrArg continueTarget hframe :)
  have hendif : r'.endif = b :: bs := (congrArg endif hframe :)
  refine ⟨fun hp => hbreak ▸ h.breakable hp, fun hp => hcontinue ▸ h.continuable hp,
    fun _ => ?_, nofun, fun _ => hcurrent⟩
  rw [hendif]
  exact Bool.and_false _

/-- The statements of a loop. -/
theorem Fits.looped {b z : Nat} {bs zs : List Nat}
    (hframe : r'.frame = { r.frame with continueTarget := b :: bs, breakTarget := z :: zs })
    (hcurrent : r'.current.isSome) :
    Fits { breakable := true, continuable := true, nested := true } true r' := by
  have hbreak : r'.breakTarget = z :: zs := (congrArg breakTarget hframe :)
  have hcontinue : r'.continueTarget = b :: bs := (congrArg continueTarget hframe :)
  refine ⟨fun _ => hbreak ▸ nofun, fun _ => hcontinue ▸ nofun, fun _ => ?_, nofun,
    fun _ => hcurrent⟩
  rw [hbreak]
  rfl

/-- The statements of a switch. -/
theorem Fits.switched {place : Place} {live : Bool} (h : Fits place live r) {z : Nat}
    {zs : List Nat} {p : BlockPtr} {ps : List BlockPtr}
    (hframe : r'.frame = { r.frame with breakTarget := z :: zs, switchCtx := p :: ps }) :
    Fits { place with breakable := true, nested := true, labels := true } false r' := by
  have hbreak : r'.breakTarget = z :: zs := (congrArg breakTarget hframe :)
  have hcontinue : r'.continueTarget = r.continueTarget := (congrArg continueTarget hframe :)
  have hswitch : r'.switchCtx = p :: ps := (congrArg switchCtx hframe :)
  refine ⟨fun _ => hbreak ▸ nofun, fun hp => hcontinue ▸ h.continuable hp, fun _ => ?_,
    fun _ => hswitch ▸ nofun, nofun⟩
  rw [hbreak]
  rfl

theorem labels_of_valid {place : Place} {live : Bool} (h : code.Valid place live)
    (hplace : place.labels = false) : code.labels = [] := by
  induction code generalizing live with
  | nil => rfl
  | instr _ _ ih => exact ih h
  | instrIf _ _ ih => exact ih h
  | ite _ _ _ _ ih => exact ih h.2
  | iteElse _ _ _ _ _ _ ih => exact ih h.2.2
  | loop _ _ _ ih => exact ih h.2
  | switch _ _ _ _ ih => exact ih h.2.2.2
  | label _ _ _ =>
    exact absurd (hplace.symm.trans h.1) Bool.false_ne_true
  | exit _ _ ih => exact ih h.2
  | exitIf _ _ _ ih => exact ih h.2

theorem instrAt_of_getElem? {B : List (BasicBlock ι)} {b k : Nat} {blk : BasicBlock ι}
    (hB : B[b]? = some blk) {is : List (Effect ι)} (h : is <+: blk.effects.drop k) :
    InstrAt (B.map BasicBlock.node) (some (b, k)) is := by
  rintro b' k' hp
  obtain ⟨rfl, rfl⟩ := Prod.mk.inj (Option.some.inj hp)
  exact ⟨_, (List.getElem?_map ..).trans (congrArg _ hB), h⟩

theorem endsAt_of_getElem? {B : List (BasicBlock ι)} {b k : Nat} {blk : BasicBlock ι}
    (hB : B[b]? = some blk) (h : blk.effects.length ≤ k) :
    EndsAt (B.map BasicBlock.node) (some (b, k)) blk.node.target := by
  rintro b' k' hp
  obtain ⟨rfl, rfl⟩ := Prod.mk.inj (Option.some.inj hp)
  exact ⟨_, (List.getElem?_map ..).trans (congrArg _ hB), h, rfl⟩

theorem addLabel_instructions (l : Option (BitVec 32) × Nat) (blk : BasicBlock ι) :
    (addLabel l blk).instructions = blk.instructions := by
  unfold addLabel
  split <;> rfl

theorem addLabel_place (r : Reader ι) (p : BlockPtr) (l : Option (BitVec 32) × Nat) :
    (r.modify p (addLabel l)).place = r.place := by
  have hcurrent : (r.modify p (addLabel l)).current = r.current := rfl
  unfold Reader.place
  rw [hcurrent]
  congr 1
  funext b
  rw [getElem?_modify]
  split
  · rw [Option.map_map]
    congr 1
    funext blk
    exact congrArg (Prod.mk b) (congrArg List.length (addLabel_instructions l blk))
  · rfl

/-- Behind ENDSWITCH the block of the switch has its labels. -/
theorem switch_endsAt (h : Inv X ret r) {b : Nat} (hb : r.current = some b) {v : ι}
    (hbuilt : Built X ret code (r.openSwitch (r.readCondition v)) r' T)
    {target : BasicBlockTarget ι} {new : List (BasicBlock ι)} {ahead : List Nat}
    (hl : Leaves r' r'' target new ahead) (hnodup : (T.map Prod.fst).Nodup)
    (hcurrent : r''.current = some r.allBb.length) (hframe : r''.frame = r.frame)
    (h' : Inv X ret r') {B : List (BasicBlock ι)} (hB : Final X r'' B) :
    ∃ cases, (∀ k, cases.lookup k = T.lookup (some k)) ∧
      EndsAt (B.map BasicBlock.node) r.place
        (.switch ((translation r.phase).select v) cases ((T.lookup none).getD r.allBb.length)) := by
  obtain ⟨hlt, hnot, hX⟩ := h.current b hb
  have hblk := List.getElem?_eq_getElem hlt
  have hmem : b ∈ r'.switches := by
    have hctx : r'.switchCtx = r.current :: r.switchCtx := (congrArg switchCtx hbuilt.frame :)
    rw [mem_switches, hctx, hb]
    exact List.mem_cons_self
  have hopened : b ∈ r'.opened := List.mem_append_right _ hmem
  have hne : r'.current ≠ some b := fun hc => (h'.current b hc).2.1 hopened
  have htop : (r.openSwitch (r.readCondition v)).switchCtx.head? = some (some b) :=
    congrArg some hb
  have hkept := hbuilt.kept b (mem_switches.mpr (List.mem_of_head? htop))
  rw [if_pos htop, openSwitch_getElem? h hb, hblk, Option.map_some,
    Option.map_some] at hkept
  obtain ⟨cases, d, heq, hcases, rfl⟩ := addLabels_switch hnodup (r.allBb[b]).instructions
    (r.readCondition v) [] r.allBb.length
  rw [heq] at hkept
  have hfinal := hB.left b _ ((hl.kept hne (h'.lt b hopened)).trans hkept)
    (by rw [show r''.opened = r.opened from (congrArg opened hframe :)]; exact hnot)
    (by rw [hcurrent]; exact fun hc => hlt.ne (Option.some.inj hc).symm) hX
  refine ⟨cases, fun k => (hcases k).trans (Option.none_or ..), ?_⟩
  have hplace := place_eq_some.mpr ⟨hb, _, hblk, rfl⟩
  rw [hplace]
  exact endsAt_of_getElem? hfinal (List.length_append.trans (by simp)).le

variable (X ret) in
/-- Statements that are read wherever they fit, and have their layout there. -/
def Builds (code : Body ι) : Prop :=
  ∀ {place : Place} {live : Bool} {r : Reader ι}, code.Valid place live → Inv X ret r →
    Fits place live r → ∃ r' T, Built X ret code r r' T

section Builds

variable {body alternative : Body ι}

/-- `if` without `else`: two blocks are opened, and the guarded statements lead to the second. -/
theorem Builds.ite (c : ι) (ihbody : Builds X ret body) (ih : Builds X ret rest) :
    Builds X ret (.ite c body rest) := by
  intro place live r hvalid h hfits
  obtain ⟨hbody, hrest⟩ := hvalid
  have hlabels := labels_of_valid hbody rfl
  obtain ⟨r₁, hstep₁, hl₁, hcurrent₁, hframe₁⟩ := step_if r c
  have hread₁ := hl₁.read h hstep₁ (List.Subset.refl _)
  obtain ⟨r₂, T₂, hbuilt₂⟩ := ihbody hbody hread₁.moves.inv
    (hfits.guarded hframe₁ (hcurrent₁ ▸ rfl))
  have hswitches₁ : r₁.switches = r.switches := (congrArg switches hframe₁ :)
  have hread₂ := hbuilt₂.read (L := r.switches) (hswitches₁ ▸ List.Subset.refl _) (.inl hlabels)
  have hframe₂ := hbuilt₂.frame.trans hframe₁
  have hendif₂ : r₂.endif = (r.allBb.length + 1) :: r.endif := (congrArg endif hframe₂ :)
  obtain ⟨r₃, hstep₃, hl₃, hcurrent₃, hframe₃⟩ := step_endif hendif₂
  have hswitches₂ : r₂.switches = r.switches := (congrArg switches hframe₂ :)
  have hread₃ := hl₃.read hread₂.moves.inv hstep₃ (L := r.switches)
    (hswitches₂ ▸ List.Subset.refl _)
  rw [hframe₂] at hframe₃
  obtain ⟨r', T, hbuilt⟩ := ih hrest hread₃.moves.inv
    (hfits.congr hframe₃ fun _ => hcurrent₃ ▸ rfl)
  have hread := (hread₁.trans hread₂).trans hread₃
  refine ⟨r', T, .cons hread hframe₃ hbuilt ?_ rfl fun B hB hlayout => ?_⟩
  · simp [Body.ops]
  · have hB₂ := hread₃.moves.final B hB
    have hlayoutBody := hbuilt₂.layout_at hB₂ (congrArg Reader.phase hframe₁ :)
      (exits_congr ret (congrArg breakTarget hframe₁ :) (congrArg continueTarget hframe₁ :))
      (hl₁.place h hcurrent₁)
    rw [hbuilt₂.eq_nil hlabels] at hlayoutBody
    rw [hl₃.place hread₂.moves.inv hcurrent₃] at hlayout
    exact .ite (hl₁.endsAt h (hread₂.moves.final B hB₂)) hlayoutBody
      (hl₃.endsAt hread₂.moves.inv hB) hlayout

/-- `if` with `else`: both branches lead to the block behind `endif`. -/
theorem Builds.iteElse (c : ι) (ihbody : Builds X ret body)
    (ihalternative : Builds X ret alternative) (ih : Builds X ret rest) :
    Builds X ret (.iteElse c body alternative rest) := by
  intro place live r hvalid h hfits
  obtain ⟨hbody, halternative, hrest⟩ := hvalid
  have hlabels := labels_of_valid hbody rfl
  have hlabels' := labels_of_valid halternative rfl
  obtain ⟨r₁, hstep₁, hl₁, hcurrent₁, hframe₁⟩ := step_if r c
  have hread₁ := hl₁.read h hstep₁ (List.Subset.refl _)
  obtain ⟨r₂, T₂, hbuilt₂⟩ := ihbody hbody hread₁.moves.inv
    (hfits.guarded hframe₁ (hcurrent₁ ▸ rfl))
  have hswitches₁ : r₁.switches = r.switches := (congrArg switches hframe₁ :)
  have hread₂ := hbuilt₂.read (L := r.switches) (hswitches₁ ▸ List.Subset.refl _) (.inl hlabels)
  have hframe₂ := hbuilt₂.frame.trans hframe₁
  have hendif₂ : r₂.endif = (r.allBb.length + 1) :: r.endif := (congrArg endif hframe₂ :)
  obtain ⟨r₃, hstep₃, hl₃, hcurrent₃, hframe₃⟩ := step_else hendif₂
  have hswitches₂ : r₂.switches = r.switches := (congrArg switches hframe₂ :)
  have hread₃ := hl₃.read hread₂.moves.inv hstep₃ (L := r.switches)
    (hswitches₂ ▸ List.Subset.refl _)
  rw [hframe₂] at hframe₃
  have hframe₃' : r₃.frame = { r.frame with endif := r₂.allBb.length :: r.endif } := hframe₃
  obtain ⟨r₄, T₄, hbuilt₄⟩ := ihalternative halternative hread₃.moves.inv
    (hfits.guarded hframe₃' (hcurrent₃ ▸ rfl))
  have hswitches₃ : r₃.switches = r.switches := (congrArg switches hframe₃' :)
  have hread₄ := hbuilt₄.read (L := r.switches) (hswitches₃ ▸ List.Subset.refl _) (.inl hlabels')
  have hframe₄ := hbuilt₄.frame.trans hframe₃'
  have hendif₄ : r₄.endif = r₂.allBb.length :: r.endif := (congrArg endif hframe₄ :)
  obtain ⟨r₅, hstep₅, hl₅, hcurrent₅, hframe₅⟩ := step_endif hendif₄
  have hswitches₄ : r₄.switches = r.switches := (congrArg switches hframe₄ :)
  have hread₅ := hl₅.read hread₄.moves.inv hstep₅ (L := r.switches)
    (hswitches₄ ▸ List.Subset.refl _)
  rw [hframe₄] at hframe₅
  obtain ⟨r', T, hbuilt⟩ := ih hrest hread₅.moves.inv
    (hfits.congr hframe₅ fun _ => hcurrent₅ ▸ rfl)
  have hread := (((hread₁.trans hread₂).trans hread₃).trans hread₄).trans hread₅
  refine ⟨r', T, .cons hread hframe₅ hbuilt ?_ rfl fun B hB hlayout => ?_⟩
  · simp [Body.ops]
  · have hB₄ := hread₅.moves.final B hB
    have hB₃ := hread₄.moves.final B hB₄
    have hB₂ := hread₃.moves.final B hB₃
    have hlayoutBody := hbuilt₂.layout_at hB₂ (congrArg Reader.phase hframe₁ :)
      (exits_congr ret (congrArg breakTarget hframe₁ :) (congrArg continueTarget hframe₁ :))
      (hl₁.place h hcurrent₁)
    have hlayoutOther := hbuilt₄.layout_at hB₄ (congrArg Reader.phase hframe₃' :)
      (exits_congr ret (congrArg breakTarget hframe₃' :) (congrArg continueTarget hframe₃' :))
      (hl₃.place hread₂.moves.inv hcurrent₃)
    rw [hbuilt₂.eq_nil hlabels] at hlayoutBody
    rw [hbuilt₄.eq_nil hlabels'] at hlayoutOther
    rw [hl₅.place hread₄.moves.inv hcurrent₅] at hlayout
    exact .iteElse (hl₁.endsAt h (hread₂.moves.final B hB₂)) hlayoutBody
      (hl₃.endsAt hread₂.moves.inv hB₃) hlayoutOther (hl₅.endsAt hread₄.moves.inv hB) hlayout

/-- `loop`: the body leads back to where it begins, and a break behind it. -/
theorem Builds.loop (ihbody : Builds X ret body) (ih : Builds X ret rest) :
    Builds X ret (.loop body rest) := by
  intro place live r hvalid h hfits
  obtain ⟨hbody, hrest⟩ := hvalid
  have hlabels := labels_of_valid hbody rfl
  obtain ⟨r₁, hstep₁, hl₁, hcurrent₁, hframe₁⟩ := step_loop r
  have hread₁ := hl₁.read h hstep₁ (List.Subset.refl _)
  obtain ⟨r₂, T₂, hbuilt₂⟩ := ihbody hbody hread₁.moves.inv (.looped hframe₁ (hcurrent₁ ▸ rfl))
  have hswitches₁ : r₁.switches = r.switches := (congrArg switches hframe₁ :)
  have hread₂ := hbuilt₂.read (L := r.switches) (hswitches₁ ▸ List.Subset.refl _) (.inl hlabels)
  have hframe₂ := hbuilt₂.frame.trans hframe₁
  have hbreak₂ : r₂.breakTarget = (r.allBb.length + 1) :: r.breakTarget :=
    (congrArg breakTarget hframe₂ :)
  have hcontinue₂ : r₂.continueTarget = r.allBb.length :: r.continueTarget :=
    (congrArg continueTarget hframe₂ :)
  obtain ⟨r₃, hstep₃, hl₃, hcurrent₃, hframe₃⟩ := step_endloop hbreak₂ hcontinue₂
  have hswitches₂ : r₂.switches = r.switches := (congrArg switches hframe₂ :)
  have hread₃ := hl₃.read hread₂.moves.inv hstep₃ (L := r.switches)
    (hswitches₂ ▸ List.Subset.refl _)
  rw [hframe₂] at hframe₃
  obtain ⟨r', T, hbuilt⟩ := ih hrest hread₃.moves.inv
    (hfits.congr hframe₃ fun _ => hcurrent₃ ▸ rfl)
  have hread := (hread₁.trans hread₂).trans hread₃
  refine ⟨r', T, .cons hread hframe₃ hbuilt ?_ rfl fun B hB hlayout => ?_⟩
  · simp [Body.ops]
  · have hB₂ := hread₃.moves.final B hB
    have hexits : r₁.exits ret =
        withLoop (r.exits ret) (r.allBb.length + 1) r.allBb.length := by
      have hbreak₁ : r₁.breakTarget = (r.allBb.length + 1) :: r.breakTarget :=
        (congrArg breakTarget hframe₁ :)
      have hcontinue₁ : r₁.continueTarget = r.allBb.length :: r.continueTarget :=
        (congrArg continueTarget hframe₁ :)
      funext j
      cases j <;> simp [exits, withLoop, hbreak₁, hcontinue₁]
    have hlayoutBody := hbuilt₂.layout_at hB₂ (congrArg Reader.phase hframe₁ :) hexits
      (hl₁.place h hcurrent₁)
    rw [hbuilt₂.eq_nil hlabels] at hlayoutBody
    rw [hl₃.place hread₂.moves.inv hcurrent₃] at hlayout
    exact .loop (hl₁.endsAt h (hread₂.moves.final B hB₂)) hlayoutBody
      (hl₃.endsAt hread₂.moves.inv hB) hlayout

/-- `switch`: the body is entered at its labels only, and a break leads behind it. -/
theorem Builds.switch (v : ι) (ihbody : Builds X ret body) (ih : Builds X ret rest) :
    Builds X ret (.switch v body rest) := by
  intro place live r hvalid h hfits
  obtain ⟨hlive, hnodup, hbody, hrest⟩ := hvalid
  obtain ⟨b, hb⟩ := Option.isSome_iff_exists.mp (hfits.live hlive)
  obtain ⟨hlt, hnot, hX⟩ := h.current b hb
  have hread₁ := openSwitch_read h hb v
  have hframe₁ : (r.openSwitch (r.readCondition v)).frame = { r.frame with
    breakTarget := r.allBb.length :: r.breakTarget
    switchCtx := r.current :: r.switchCtx } := rfl
  obtain ⟨r₂, T₂, hbuilt₂⟩ := ihbody hbody hread₁.moves.inv (hfits.switched hframe₁)
  have hread₂ := hbuilt₂.read (L := r.switches)
    (fun c hc => mem_switches.mpr (List.mem_cons_of_mem _ (mem_switches.mp hc)))
    (.inr fun c hc hhead => by
      have hcb : r.current = some c := Option.some.inj hhead
      exact (h.current c hcb).2.1 (List.mem_append_right _ hc))
  have hframe₂ := hbuilt₂.frame.trans hframe₁
  have hbreak₂ : r₂.breakTarget = r.allBb.length :: r.breakTarget :=
    (congrArg breakTarget hframe₂ :)
  have hswitch₂ : r₂.switchCtx = r.current :: r.switchCtx := (congrArg switchCtx hframe₂ :)
  obtain ⟨r₃, hstep₃, hl₃, hcurrent₃, hframe₃⟩ := step_endswitch hbreak₂ hswitch₂
  have hread₃ := hl₃.read hread₂.moves.inv hstep₃ (L := r.switches) fun c hc => by
    rw [mem_switches, hswitch₂]
    exact List.mem_cons_of_mem _ (mem_switches.mp hc)
  rw [hframe₂] at hframe₃
  obtain ⟨r', T, hbuilt⟩ := ih hrest hread₃.moves.inv
    (hfits.congr hframe₃ fun _ => hcurrent₃ ▸ rfl)
  have hread := (hread₁.trans hread₂).trans hread₃
  refine ⟨r', T, .cons hread hframe₃ hbuilt ?_ rfl fun B hB hlayout => ?_⟩
  · simp [Body.ops]
  · have hB₂ := hread₃.moves.final B hB
    have hexits : (r.openSwitch (r.readCondition v)).exits ret =
        withBreak (r.exits ret) r.allBb.length := by
      funext j
      cases j <;> rfl
    have hlayoutBody := hbuilt₂.layout_at hB₂ (rfl : _ = r.phase) hexits (p := none) rfl
    rw [hl₃.place hread₂.moves.inv hcurrent₃] at hlayout
    obtain ⟨cases, hcases, hends⟩ := switch_endsAt h hb hbuilt₂ hl₃ (hbuilt₂.labels ▸ hnodup)
      hcurrent₃ hframe₃ hread₂.moves.inv hB
    exact .switch hcases hends hlayoutBody (hl₃.endsAt hread₂.moves.inv hB) hlayout

/-- `case` and `default` add a label to the switch on top. -/
theorem Builds.label (l : Option (BitVec 32)) (ih : Builds X ret rest) :
    Builds X ret (.label l rest) := by
  intro place live r hvalid h hfits
  obtain ⟨hplace, hrest⟩ := hvalid
  obtain ⟨p, ps, hp⟩ := List.exists_cons_of_ne_nil (hfits.labels hplace)
  have hhead : r.switchCtx.head? = some p := by rw [hp]; rfl
  obtain ⟨r₁, hstep, hl, hcurrent, hframe⟩ := step_label h hhead l
  have hlabelled := addLabel_moves h (hp ▸ List.mem_cons_self) (l, r.allBb.length)
  have hmoves := hlabelled.trans (hl.moves hlabelled.inv)
  obtain ⟨r', T, hbuilt⟩ := ih hrest hmoves.inv (hfits.congr hframe fun _ => hcurrent ▸ rfl)
  have hops : Body.ops (.label l rest) = labelOp l :: Body.ops rest := by
    cases l <;> rfl
  refine ⟨r', (l, r.allBb.length) :: T, ?_, hmoves.trans hbuilt.moves,
    hbuilt.frame.trans hframe, congrArg (l :: ·) hbuilt.labels, ?_, fun B hB => ?_⟩
  · rw [hops, run_cons, hstep, Option.bind_some, hbuilt.run]
  · intro b hb
    have hctx : r₁.switchCtx = r.switchCtx := (congrArg switchCtx hframe :)
    have hkept := hbuilt.kept b (by rw [mem_switches, hctx]; exact mem_switches.mp hb)
    have hmem : b ∈ r.opened := List.mem_append_right _ hb
    have hne : r.current ≠ some b := fun hc => (h.current b hc).2.1 hmem
    have hlt : b < (r.modify p (addLabel (l, r.allBb.length))).allBb.length := by
      rw [length_modify]
      exact h.lt b hmem
    rw [hctx, hhead, hl.kept hne hlt, getElem?_modify] at hkept
    rw [hkept, hhead]
    by_cases hpb : p = some b
    · rw [if_pos (congrArg some hpb), if_pos hpb, if_pos (congrArg some hpb), Option.map_map]
      rfl
    · have hpb' : some p ≠ some (some b) := fun heq => hpb (Option.some.inj heq)
      rw [if_neg hpb', if_neg hpb, if_neg hpb']
  · have hexits := exits_congr ret (congrArg breakTarget hframe :)
      (congrArg continueTarget hframe :)
    have hlayout := hbuilt.layout_at hB (congrArg Reader.phase hframe :) hexits
      (hl.place hlabelled.inv hcurrent)
    have hends := hl.endsAt hlabelled.inv (hbuilt.moves.final B hB)
    rw [addLabel_place] at hends
    exact .label hends hlayout

end Builds

/-- **Statements have their layout** in whatever blocks the reader ends with. -/
theorem run_body {place : Place} {live : Bool} (hvalid : code.Valid place live) (h : Inv X ret r)
    (hfits : Fits place live r) : ∃ r' T, Built X ret code r r' T := by
  induction code generalizing place live r with
  | nil =>
    exact ⟨r, [], rfl, ⟨h, fun _ hB => hB, fun _ _ => rfl⟩, rfl, rfl, fun b _ => by
      split
      · exact (Option.map_id' ..).symm
      · rfl, fun _ _ => .nil⟩
  | instr i rest ih =>
    obtain ⟨is, hstep, his⟩ : ∃ is, r.step i.op = some (r.push is) ∧
        (translation r.phase).instr i = is.map Effect.instruction := by
      cases i <;> exact ⟨_, rfl, rfl⟩
    have hread := push_read h hstep
    obtain ⟨r', T, hbuilt⟩ := ih hvalid hread.moves.inv (hfits.congr rfl hfits.live)
    refine ⟨r', T, .cons hread rfl hbuilt rfl rfl fun B hB hlayout => ?_⟩
    rw [push_place, ← his] at hlayout
    exact .instr (his ▸ push_instrAt hB) hlayout
  | instrIf c rest ih =>
    obtain ⟨r₁, hstep, hl, hcurrent, hframe⟩ := step_discard r c
    have hread := hl.read h hstep (List.Subset.refl _)
    obtain ⟨r', T, hbuilt⟩ := ih hvalid hread.moves.inv
      (hfits.congr hframe fun _ => hcurrent ▸ rfl)
    refine ⟨r', T, .cons hread hframe hbuilt rfl rfl fun B hB hlayout => ?_⟩
    rw [hl.place h hcurrent] at hlayout
    have hmade : B[r.allBb.length]? = _ := hl.made h hB (i := 0) rfl fun hmem =>
      absurd (List.mem_singleton.mp hmem) (Nat.lt_succ_self _).ne
    exact .instrIf (hl.endsAt h hB) (instrAt_of_getElem? hmade (List.prefix_refl _))
      (endsAt_of_getElem? hmade le_rfl) hlayout
  | ite c body rest ihbody ih => exact Builds.ite c ihbody ih hvalid h hfits
  | iteElse c body alternative rest ihbody ihalternative ih =>
    exact Builds.iteElse c ihbody ihalternative ih hvalid h hfits
  | loop body rest ihbody ih => exact Builds.loop ihbody ih hvalid h hfits
  | switch v body rest ihbody ih => exact Builds.switch v ihbody ih hvalid h hfits
  | label l rest ih => exact Builds.label l ih hvalid h hfits
  | exit j rest ih =>
    obtain ⟨hallows, hrest⟩ := hvalid
    obtain ⟨r₁, hstep, hl, hcurrent, hframe⟩ := step_exit (hfits.canExit (.inr hallows)) h.ret
      fun hj => hfits.nested (by rw [hj] at hallows; exact hallows)
    have hread := hl.read h hstep (List.Subset.refl _)
    obtain ⟨r', T, hbuilt⟩ := ih hrest hread.moves.inv
      (hfits.congr hframe fun hlive => absurd hlive Bool.false_ne_true)
    have hops : Body.ops (.exit j rest) = exitOp j :: Body.ops rest := by
      cases j <;> rfl
    refine ⟨r', T, .cons hread hframe hbuilt hops rfl fun B hB hlayout => ?_⟩
    have hnone : r₁.place = none := by rw [Reader.place, hcurrent]; rfl
    rw [hnone] at hlayout
    exact .exit (hl.endsAt h hB) hlayout
  | exitIf c j rest ih =>
    obtain ⟨hallows, hrest⟩ := hvalid
    obtain ⟨r₁, hstep, hl, hcurrent, hframe⟩ := step_exitIf (hfits.canExit hallows) h.ret c
    have hread := hl.read h hstep (List.Subset.refl _)
    obtain ⟨r', T, hbuilt⟩ := ih hrest hread.moves.inv
      (hfits.congr hframe fun _ => hcurrent ▸ rfl)
    have hops : Body.ops (.exitIf c j rest) = exitIfOp c j :: Body.ops rest := by
      cases j <;> rfl
    refine ⟨r', T, .cons hread hframe hbuilt hops rfl fun B hB hlayout => ?_⟩
    rw [hl.place h hcurrent] at hlayout
    exact .exitIf (hl.endsAt h hB) hlayout

end Reader

end ControlFlow

end Dxmt
