import Dxmt.ControlFlow
import Mathlib.Data.List.ReduceOption

/-!
# Blocks that are left for good

An instruction of a shader changes the current block, the blocks that are still to come and those of
the open switches. Every other block is left for good, so it is in the final blocks as it is
(`Moves.of`).
-/

namespace Dxmt

namespace ControlFlow

open Structured

variable {ι : Type}

theorem BasicBlock.effects_of_ne {b : BasicBlock ι}
    (h : ∀ instanceCount epilogue, b.target ≠ .hullShaderWriteOutput instanceCount epilogue) :
    b.effects = b.instructions.map .instruction := by
  obtain ⟨instructions, target⟩ := b
  cases target with
  | hullShaderWriteOutput instanceCount epilogue => exact absurd rfl (h instanceCount epilogue)
  | _ => exact List.append_nil _

namespace Reader

/-! ## Blocks that are not final -/

/-- The blocks that are still to come. -/
def pending (r : Reader ι) : List Nat := r.endif ++ r.breakTarget

/-- The blocks of the switches that are open. -/
def switches (r : Reader ι) : List Nat := r.switchCtx.reduceOption

/-- The blocks that are opened and not yet filled. -/
def opened (r : Reader ι) : List Nat := r.pending ++ r.switches

/-- The reader without its blocks. -/
def frame (r : Reader ι) : Reader ι := { r with allBb := [], bbVoid := {}, current := none }

/-- The place that is read to. -/
def place (r : Reader ι) : Option (Nat × Nat) :=
  r.current.bind fun b => r.allBb[b]?.map fun blk => (b, blk.instructions.length)

/-- The reader between two instructions. The blocks of `X` are taken up by another phase. -/
structure Inv (X : Nat → Prop) (ret : Nat) (r : Reader ι) : Prop where
  nodup : r.opened.Nodup
  lt : ∀ b ∈ r.opened, b < r.allBb.length
  exempt : ∀ b, X b → b < r.allBb.length ∧ b ∉ r.opened
  current : ∀ b, r.current = some b → b < r.allBb.length ∧ b ∉ r.opened ∧ ¬X b
  empty : ∀ b ∈ r.pending, ∀ blk, r.allBb[b]? = some blk → blk.instructions = []
  isSwitch : ∀ p ∈ r.switchCtx, ∃ b blk v cases d, p = some b ∧ r.allBb[b]? = some blk ∧
    blk.target = .switch v cases d
  inst : ∀ p ∈ r.instanceCtx.head?, ∃ b, p = some b ∧ b < r.allBb.length ∧ b ∉ r.opened ∧
    r.current ≠ some b
  ret : r.retTarget = some ret
  closed : ∀ b blk, r.allBb[b]? = some blk → b ∉ r.opened → r.current ≠ some b → ¬X b →
    blk.target ≠ .undefined

/-- The final blocks have those that are left for good, and begin as the others do. -/
structure Final (X : Nat → Prop) (r : Reader ι) (B : List (BasicBlock ι)) : Prop where
  left : ∀ b blk, r.allBb[b]? = some blk → b ∉ r.opened → r.current ≠ some b → ¬X b →
    B[b]? = some blk
  begun : ∀ b blk, r.allBb[b]? = some blk → r.current = some b ∨ b ∈ r.switches →
    ∃ blk', B[b]? = some blk' ∧ blk.instructions <+: blk'.instructions

/-- What a move of the reader keeps, and what it leaves for good. -/
structure Moves (X : Nat → Prop) (ret : Nat) (r r' : Reader ι) : Prop where
  inv : Inv X ret r'
  final : ∀ B, Final X r' B → Final X r B
  exempt : ∀ b, X b → r'.allBb[b]? = r.allBb[b]?

/-! ## Moves -/

variable {X : Nat → Prop} {ret : Nat} {r r' r'' : Reader ι}

/-- The place is the end of the current block. -/
theorem place_eq_some {b k : Nat} : r.place = some (b, k) ↔
    r.current = some b ∧ ∃ blk, r.allBb[b]? = some blk ∧ blk.instructions.length = k := by
  unfold place
  constructor
  · intro h
    obtain ⟨c, hc, hk⟩ := Option.bind_eq_some_iff.mp h
    obtain ⟨blk, hblk, heq⟩ := Option.map_eq_some_iff.mp hk
    obtain ⟨rfl, rfl⟩ := Prod.mk.inj heq
    exact ⟨hc, blk, hblk, rfl⟩
  · rintro ⟨hb, blk, hblk, rfl⟩
    rw [hb, Option.bind_some, hblk]
    rfl

/-- The place that is read to is the end of the current block once it has its target. -/
theorem endsAt_place (target : BasicBlockTarget ι) {B : List (BasicBlock ι)}
    (htarget : ∀ instanceCount epilogue, target ≠ .hullShaderWriteOutput instanceCount epilogue)
    (hB : ∀ b blk, r.current = some b → r.allBb[b]? = some blk → B[b]? = some { blk with target }) :
    EndsAt (B.map BasicBlock.node) r.place (BasicBlock.node { target }).target := by
  intro b k hp
  obtain ⟨hb, blk, hblk, rfl⟩ := place_eq_some.mp hp
  refine ⟨_, (List.getElem?_map ..).trans (congrArg _ (hB b blk hb hblk)), ?_, rfl⟩
  rw [BasicBlock.node, BasicBlock.effects_of_ne htarget, List.length_map]

theorem mem_switches {b : Nat} : b ∈ r.switches ↔ some b ∈ r.switchCtx := by
  unfold switches
  rw [List.reduceOption_mem_iff]

/-- An open switch is a block that ends in one. -/
theorem Inv.switch_of_mem (h : Inv X ret r) {b : Nat} (hb : b ∈ r.switches) :
    ∃ blk v cases d, r.allBb[b]? = some blk ∧ blk.target = .switch v cases d := by
  obtain ⟨c, blk, v, cases, d, hc, hblk, htarget⟩ := h.isSwitch _ (mem_switches.mp hb)
  rw [← Option.some.inj hc] at hblk
  exact ⟨blk, v, cases, d, hblk, htarget⟩

/-- Two moves are one. -/
theorem Moves.trans (h : Moves X ret r r') (h' : Moves X ret r' r'') : Moves X ret r r'' :=
  ⟨h'.inv, fun B hB => h.final B (h'.final B hB),
    fun b hb => (h'.exempt b hb).trans (h.exempt b hb)⟩

theorem getElem?_modify (r : Reader ι) (p : BlockPtr) (f : BasicBlock ι → BasicBlock ι) (b : Nat) :
    (r.modify p f).allBb[b]? = if p = some b then r.allBb[b]?.map f else r.allBb[b]? := by
  cases p with
  | none => rw [if_neg nofun]; rfl
  | some c =>
    change (r.allBb.modify c f)[b]? = _
    rw [List.getElem?_modify]
    by_cases h : c = b
    · simp only [if_pos h, if_pos (congrArg some h)]
      rfl
    · simp only [if_neg h, if_neg fun h' => h (Option.some.inj h')]
      exact Option.map_id' ..

theorem length_modify (r : Reader ι) (p : BlockPtr) (f : BasicBlock ι → BasicBlock ι) :
    (r.modify p f).allBb.length = r.allBb.length := by
  cases p with
  | none => rfl
  | some c => exact List.length_modify ..

/-- The blocks to return to are those they were. -/
theorem retTarget_congr (hctx : r'.instanceCtx = r.instanceCtx)
    (hkept : ∀ p ∈ r.instanceCtx.head?, r'.block p = r.block p) : r'.retTarget = r.retTarget := by
  unfold retTarget
  rw [hctx]
  cases hc : r.instanceCtx with
  | nil => rfl
  | cons p rest =>
    have hblock := hkept p (by rw [hc]; rfl)
    simp only [hblock]

/-- The rule for a move: blocks that were left for good stay as they are, and the others are open or
left now. -/
theorem Moves.of (h : Inv X ret r) (hlength : r.allBb.length ≤ r'.allBb.length)
    (hctx : r'.instanceCtx = r.instanceCtx) (hnodup : r'.opened.Nodup)
    (hopened : ∀ b ∈ r'.opened, b < r'.allBb.length ∧ ¬X b ∧
      (b ∈ r.opened ∨ r.allBb.length ≤ b ∨ r.current = some b))
    (hcurrent : ∀ b, r'.current = some b → b < r'.allBb.length ∧ ¬X b ∧ b ∉ r'.opened ∧
      (b ∈ r.opened ∨ r.allBb.length ≤ b ∨ r.current = some b))
    (hempty : ∀ b ∈ r'.pending, ∀ blk, r'.allBb[b]? = some blk → blk.instructions = [])
    (hswitch : ∀ p ∈ r'.switchCtx, ∃ b blk v cases d, p = some b ∧ r'.allBb[b]? = some blk ∧
      blk.target = .switch v cases d)
    (hkept : ∀ b < r.allBb.length, b ∉ r.opened → r.current ≠ some b →
      r'.allBb[b]? = r.allBb[b]?)
    (hclosed : ∀ b blk, b ∈ r.opened ∨ r.allBb.length ≤ b ∨ r.current = some b →
      r'.allBb[b]? = some blk → b ∉ r'.opened → r'.current ≠ some b → blk.target ≠ .undefined)
    (hbegun : ∀ b blk, r.allBb[b]? = some blk → r.current = some b ∨ b ∈ r.switches →
      ∃ blk', r'.allBb[b]? = some blk' ∧ blk.instructions <+: blk'.instructions ∧
        (b ∈ r'.opened → b ∈ r'.switches)) : Moves X ret r r' := by
  have hold : ∀ b, b < r.allBb.length → b ∉ r.opened → r.current ≠ some b →
      b ∉ r'.opened ∧ r'.current ≠ some b := by
    intro b hlt hnot hne
    constructor
    · intro hb
      obtain hb | hb | hb := (hopened b hb).2.2
      · exact hnot hb
      · omega
      · exact hne hb
    · intro hb
      obtain hb | hb | hb := (hcurrent b hb).2.2.2
      · exact hnot hb
      · omega
      · exact hne hb
  refine ⟨⟨hnodup, fun b hb => (hopened b hb).1, ?_, ?_, hempty, hswitch, ?_, ?_, ?_⟩,
    fun B hB => ⟨?_, ?_⟩, fun b hb => ?_⟩
  · intro b hb
    exact ⟨(h.exempt b hb).1.trans_le hlength, fun hmem => (hopened b hmem).2.1 hb⟩
  · intro b hb
    obtain ⟨hlt, hX, hnot, -⟩ := hcurrent b hb
    exact ⟨hlt, hnot, hX⟩
  · intro p hp
    rw [hctx] at hp
    obtain ⟨b, rfl, hlt, hnot, hne⟩ := h.inst p hp
    obtain ⟨hnot', hne'⟩ := hold b hlt hnot hne
    exact ⟨b, rfl, hlt.trans_le hlength, hnot', hne'⟩
  · refine (retTarget_congr hctx fun p hp => ?_).trans h.ret
    obtain ⟨b, rfl, hlt, hnot, hne⟩ := h.inst p hp
    exact hkept b hlt hnot hne
  · intro b blk hblk hnot' hne' hX
    by_cases hb : b ∈ r.opened ∨ r.allBb.length ≤ b ∨ r.current = some b
    · exact hclosed b blk hb hblk hnot' hne'
    · simp only [not_or, not_le] at hb
      rw [hkept b hb.2.1 hb.1 hb.2.2] at hblk
      exact h.closed b blk hblk hb.1 hb.2.2 hX
  · intro b blk hblk hnot hne hX
    have hlt : b < r.allBb.length := (List.getElem?_eq_some_iff.mp hblk).1
    obtain ⟨hnot', hne'⟩ := hold b hlt hnot hne
    exact hB.left b blk ((hkept b hlt hnot hne).trans hblk) hnot' hne' hX
  · intro b blk hblk hb
    obtain ⟨blk', hblk', hgrown, himp⟩ := hbegun b blk hblk hb
    by_cases hbegun' : r'.current = some b ∨ b ∈ r'.switches
    · obtain ⟨blk'', hB', hgrown'⟩ := hB.begun b blk' hblk' hbegun'
      exact ⟨blk'', hB', hgrown.trans hgrown'⟩
    · simp only [not_or] at hbegun'
      have hX : ¬X b := by
        intro hX
        obtain hb | hb := hb
        · exact (h.current b hb).2.2 hX
        · exact (h.exempt b hX).2 (List.mem_append_right _ hb)
      exact ⟨blk', hB.left b blk' hblk' (fun hmem => hbegun'.2 (himp hmem)) hbegun'.1 hX, hgrown⟩
  · obtain ⟨hlt, hnot⟩ := h.exempt b hb
    exact hkept b hlt hnot fun hc => (h.current b hc).2.2 hb

/-- The rule for a change of the current block or of an open switch. -/
theorem modify_moves (h : Inv X ret r) {p : BlockPtr} {f : BasicBlock ι → BasicBlock ι}
    (hp : p = r.current ∨ p ∈ r.switchCtx)
    (hgrown : ∀ blk, blk.instructions <+: (f blk).instructions)
    (htarget : ∀ blk v cases d, blk.target = .switch v cases d →
      ∃ cases' d', (f blk).target = .switch v cases' d') : Moves X ret r (r.modify p f) := by
  have hmem : ∀ b, p = some b → r.current = some b ∨ b ∈ r.switches := by
    rintro b rfl
    obtain hp | hp := hp
    · exact .inl hp.symm
    · exact .inr (mem_switches.mpr hp)
  have hne : ∀ b, b ∉ r.opened → r.current ≠ some b → p ≠ some b := by
    intro b hnot hcurrent hpb
    obtain hb | hb := hmem b hpb
    · exact hcurrent hb
    · exact hnot (List.mem_append_right _ hb)
  have hopened : ∀ b ∈ r.opened, b < r.allBb.length ∧ ¬X b := fun b hb =>
    ⟨h.lt b hb, fun hX => (h.exempt b hX).2 hb⟩
  have hlength := length_modify r p f
  refine .of h hlength.ge rfl h.nodup ?_ ?_ ?_ ?_ ?_ ?_ ?_
  · exact fun b hb => ⟨hlength ▸ (hopened b hb).1, (hopened b hb).2, .inl hb⟩
  · intro b hb
    obtain ⟨hlt, hnot, hX⟩ := h.current b hb
    exact ⟨hlength ▸ hlt, hX, hnot, .inr (.inr hb)⟩
  · intro b hb blk hblk
    have hpb : p ≠ some b := by
      intro hpb
      obtain hc | hc := hmem b hpb
      · exact (h.current b hc).2.1 (List.mem_append_left _ hb)
      · exact (List.nodup_append.mp h.nodup).2.2 b hb b hc rfl
    rw [getElem?_modify, if_neg hpb] at hblk
    exact h.empty b hb blk hblk
  · intro q hq
    obtain ⟨b, blk, v, cases, d, rfl, hblk, hswitch⟩ := h.isSwitch q hq
    by_cases hpb : p = some b
    · obtain ⟨cases', d', hswitch'⟩ := htarget blk v cases d hswitch
      refine ⟨b, f blk, v, cases', d', rfl, ?_, hswitch'⟩
      rw [getElem?_modify, if_pos hpb, hblk]
      rfl
    · exact ⟨b, blk, v, cases, d, rfl, by rw [getElem?_modify, if_neg hpb, hblk], hswitch⟩
  · intro b _ hnot hcurrent
    rw [getElem?_modify, if_neg (hne b hnot hcurrent)]
  · intro b blk hb hblk hnot hcurrent
    have hlt : b < r.allBb.length := hlength ▸ (List.getElem?_eq_some_iff.mp hblk).1
    obtain hb | hb | hb := hb
    · exact absurd hb hnot
    · omega
    · exact absurd hb hcurrent
  · intro b blk hblk hb
    rw [getElem?_modify, hblk]
    have hswitch : b ∈ r.opened → b ∈ r.switches := fun hopened =>
      hb.resolve_left fun hc => (h.current b hc).2.1 hopened
    by_cases hpb : p = some b
    · exact ⟨f blk, if_pos hpb, hgrown blk, hswitch⟩
    · exact ⟨blk, if_neg hpb, List.prefix_rfl, hswitch⟩

/-! ## Instructions -/

/-- Instructions go to the current block. -/
theorem push_moves (h : Inv X ret r) (is : List (Instruction ι)) : Moves X ret r (r.push is) :=
  modify_moves h (.inl rfl) (fun _ => List.prefix_append ..)
    fun _ _ cases d htarget => ⟨cases, d, htarget⟩

theorem getElem?_push (is : List (Instruction ι)) {b : Nat} (hb : r.current = some b) :
    (r.push is).allBb[b]? =
      r.allBb[b]?.map fun blk => { blk with instructions := blk.instructions ++ is } :=
  (getElem?_modify ..).trans (if_pos hb)

theorem push_place (r : Reader ι) (is : List (Instruction ι)) :
    (r.push is).place = behind r.place (is.map Effect.instruction) := by
  have hcurrent : (r.push is).current = r.current := rfl
  unfold place behind
  rw [hcurrent]
  cases hb : r.current with
  | none => rfl
  | some b =>
    rw [Option.bind_some, Option.bind_some, getElem?_push is hb]
    cases r.allBb[b]? with
    | none => rfl
    | some blk => simp only [Option.map_some, List.length_append, List.length_map]

/-- The instructions stand where the current block ended. -/
theorem push_instrAt {is : List (Instruction ι)} {B : List (BasicBlock ι)}
    (hB : Final X (r.push is) B) :
    InstrAt (B.map BasicBlock.node) r.place (is.map Effect.instruction) := by
  intro b k hp
  obtain ⟨hb, blk, hblk, rfl⟩ := place_eq_some.mp hp
  have hblk' := getElem?_push is hb
  rw [hblk, Option.map_some] at hblk'
  obtain ⟨final, hfinal, rest, hrest⟩ := hB.begun b _ hblk' (.inl hb)
  refine ⟨_, (List.getElem?_map ..).trans (congrArg _ hfinal), ?_⟩
  rw [BasicBlock.node, BasicBlock.effects, ← hrest, List.map_append, List.map_append,
    List.append_assoc, List.append_assoc, List.drop_left' (List.length_map ..)]
  exact List.prefix_append ..

/-! ## Blocks that are left -/

variable (ι) in
/-- Blocks as they are made. -/
def blank (n : Nat) : List (BasicBlock ι) := List.replicate n {}

/-- The current block is left with a target, and new blocks are made. Those of `ahead` are still to
come or run next. -/
structure Leaves (r r' : Reader ι) (target : BasicBlockTarget ι) (new : List (BasicBlock ι))
    (ahead : List Nat) : Prop where
  allBb : r'.allBb = r.current.elim (r.allBb ++ new) fun b =>
    (r.allBb ++ new).modify b fun blk => { blk with target }
  target : target ≠ .undefined ∧ ∀ instanceCount epilogue,
    target ≠ .hullShaderWriteOutput instanceCount epilogue
  instanceCtx : r'.instanceCtx = r.instanceCtx
  switchCtx : r'.switchCtx.Sublist r.switchCtx
  perm : (r'.current.toList ++ r'.pending).Perm (r.pending ++ ahead)
  nodup : ahead.Nodup
  fresh : ∀ b ∈ ahead, r.allBb.length ≤ b ∧
    ∃ blk, new[b - r.allBb.length]? = some blk ∧ blk.instructions = []
  done : ∀ i blk, new[i]? = some blk → r.allBb.length + i ∉ ahead → blk.target ≠ .undefined

section Leaves

variable {target : BasicBlockTarget ι} {new : List (BasicBlock ι)} {ahead : List Nat}

theorem Leaves.length (hl : Leaves r r' target new ahead) :
    r'.allBb.length = r.allBb.length + new.length := by
  rw [hl.allBb]
  cases r.current with
  | none => exact List.length_append
  | some b => exact (List.length_modify ..).trans List.length_append

theorem Leaves.getElem?_current (h : Inv X ret r) (hl : Leaves r r' target new ahead) {b : Nat}
    (hb : r.current = some b) : r'.allBb[b]? = r.allBb[b]?.map fun blk => { blk with target } := by
  have hlt := (h.current b hb).1
  rw [hl.allBb, hb]
  change ((r.allBb ++ new).modify b _)[b]? = _
  rw [List.getElem?_modify, List.getElem?_append_left hlt]
  simp only [if_true]
  rfl

theorem Leaves.getElem?_of_ne (hl : Leaves r r' target new ahead) {b : Nat}
    (hb : r.current ≠ some b) : r'.allBb[b]? = (r.allBb ++ new)[b]? := by
  rw [hl.allBb]
  cases hc : r.current with
  | none => rfl
  | some c =>
    change ((r.allBb ++ new).modify c _)[b]? = _
    have hcb : c ≠ b := fun hcb => hb (hc.trans (congrArg some hcb))
    rw [List.getElem?_modify]
    simp only [if_neg hcb]
    exact Option.map_id' ..

/-- A step that leaves its block touches no other. -/
theorem Leaves.kept (hl : Leaves r r' target new ahead) {b : Nat} (hb : r.current ≠ some b)
    (hlt : b < r.allBb.length) : r'.allBb[b]? = r.allBb[b]? := by
  rw [hl.getElem?_of_ne hb, List.getElem?_append_left hlt]

theorem Leaves.mem (hl : Leaves r r' target new ahead) {b : Nat}
    (hb : r'.current = some b ∨ b ∈ r'.opened) : b ∈ r.opened ∨ b ∈ ahead := by
  have hmem : b ∈ r'.current.toList ++ r'.pending ∨ b ∈ r'.switches := by
    obtain hb | hb := hb
    · exact .inl (List.mem_append_left _ (by rw [hb]; exact List.mem_singleton_self b))
    · obtain hb | hb := List.mem_append.mp hb
      · exact .inl (List.mem_append_right _ hb)
      · exact .inr hb
  obtain hb | hb := hmem
  · obtain hb | hb := List.mem_append.mp (hl.perm.subset hb)
    · exact .inl (List.mem_append_left _ hb)
    · exact .inr hb
  · exact .inl (List.mem_append_right _ ((List.Sublist.filterMap id hl.switchCtx).subset hb))

theorem Leaves.opened_nodup (h : Inv X ret r) (hl : Leaves r r' target new ahead) :
    (r'.current.toList ++ r'.opened).Nodup := by
  have hahead : (r.opened ++ ahead).Nodup := by
    refine List.nodup_append.mpr ⟨h.nodup, hl.nodup, fun b hb c hc hbc => ?_⟩
    have := h.lt b hb
    have := (hl.fresh c hc).1
    omega
  have hsub : (r'.current.toList ++ r'.opened).Subperm (r.opened ++ ahead) := by
    unfold opened
    rw [← List.append_assoc]
    refine ((hl.perm.append_right _).subperm).trans ?_
    refine (((List.Sublist.filterMap id hl.switchCtx).append_left _).subperm).trans ?_
    rw [List.append_assoc, List.append_assoc]
    exact (List.perm_append_comm.append_left _).subperm
  obtain ⟨rest, hperm, hsublist⟩ := hsub
  exact hperm.nodup_iff.mp (hahead.sublist hsublist)

/-- What is not left is still to come or run next. -/
theorem Leaves.mem_of_pending (hl : Leaves r r' target new ahead) {b : Nat}
    (hb : b ∈ r.pending ∨ b ∈ ahead) (hne : r'.current ≠ some b) : b ∈ r'.pending := by
  obtain hmem | hmem := List.mem_append.mp (hl.perm.mem_iff.mpr (List.mem_append.mpr hb))
  · exact absurd (Option.mem_toList.mp hmem) hne
  · exact hmem

theorem Leaves.empty (h : Inv X ret r) (hl : Leaves r r' target new ahead) {b : Nat}
    (hb : b ∈ r'.current.toList ++ r'.pending) :
    ∃ blk, r'.allBb[b]? = some blk ∧ blk.instructions = [] := by
  obtain hb | hb := List.mem_append.mp (hl.perm.subset hb)
  · have hopened : b ∈ r.opened := List.mem_append_left _ hb
    have hne : r.current ≠ some b := fun hc => (h.current b hc).2.1 hopened
    rw [hl.kept hne (h.lt b hopened), List.getElem?_eq_getElem (h.lt b hopened)]
    exact ⟨_, rfl, h.empty b hb _ (List.getElem?_eq_getElem (h.lt b hopened))⟩
  · obtain ⟨hle, blk, hblk, hempty⟩ := hl.fresh b hb
    have hne : r.current ≠ some b := fun hc => by
      have := (h.current b hc).1
      omega
    rw [hl.getElem?_of_ne hne, List.getElem?_append_right hle]
    exact ⟨blk, hblk, hempty⟩

/-- The current block is left for good. -/
theorem Leaves.current_left (h : Inv X ret r) (hl : Leaves r r' target new ahead) {b : Nat}
    (hb : r.current = some b) : ¬(r'.current = some b ∨ b ∈ r'.opened) := by
  intro hmem
  obtain hmem | hmem := hl.mem hmem
  · exact (h.current b hb).2.1 hmem
  · have := (hl.fresh b hmem).1
    have := (h.current b hb).1
    omega

/-- A step that leaves its block moves on. -/
theorem Leaves.moves (h : Inv X ret r) (hl : Leaves r r' target new ahead) : Moves X ret r r' := by
  have hnodup := hl.opened_nodup h
  have hplace : ∀ b, r'.current = some b ∨ b ∈ r'.opened → b < r'.allBb.length ∧ ¬X b ∧
      (b ∈ r.opened ∨ r.allBb.length ≤ b ∨ r.current = some b) := by
    intro b hb
    obtain hb | hb := hl.mem hb
    · have hlt := h.lt b hb
      exact ⟨hl.length ▸ by omega, fun hX => (h.exempt b hX).2 hb, .inl hb⟩
    · obtain ⟨hle, blk, hblk, -⟩ := hl.fresh b hb
      have hlt := (List.getElem?_eq_some_iff.mp hblk).1
      refine ⟨hl.length ▸ by omega, fun hX => ?_, .inr (.inl hle)⟩
      have := (h.exempt b hX).1
      omega
  refine .of h (hl.length ▸ Nat.le_add_right ..) hl.instanceCtx (List.nodup_append.mp hnodup).2.1
    (fun b hb => hplace b (.inr hb)) ?_ ?_ ?_ ?_ ?_ ?_
  · intro b hb
    obtain ⟨hlt, hX, hfrom⟩ := hplace b (.inl hb)
    refine ⟨hlt, hX, fun hmem => ?_, hfrom⟩
    exact (List.nodup_append.mp hnodup).2.2 b (Option.mem_toList.mpr hb) b hmem rfl
  · intro b hb blk hblk
    obtain ⟨blk', hblk', hempty⟩ := hl.empty h (List.mem_append_right _ hb)
    rwa [Option.some.inj (hblk.symm.trans hblk')]
  · intro p hp
    obtain ⟨b, blk, v, cases, d, rfl, hblk, htarget⟩ := h.isSwitch p (hl.switchCtx.subset hp)
    have hmem : b ∈ r.opened :=
      List.mem_append_right _ (mem_switches.mpr (hl.switchCtx.subset hp))
    have hne : r.current ≠ some b := fun hc => (h.current b hc).2.1 hmem
    exact ⟨b, blk, v, cases, d, rfl, (hl.kept hne (h.lt b hmem)).trans hblk, htarget⟩
  · exact fun b hlt _ hne => hl.kept hne hlt
  · intro b blk hb hblk hnot hne
    by_cases hc : r.current = some b
    · rw [hl.getElem?_current h hc, Option.map_eq_some_iff] at hblk
      obtain ⟨blk', -, rfl⟩ := hblk
      exact hl.target.1
    · have hpending : b ∈ r.pending ∨ b ∈ ahead → False := fun hmem =>
        hnot (List.mem_append_left _ (hl.mem_of_pending hmem hne))
      obtain hb | hle | hb := hb
      · obtain hb | hb := List.mem_append.mp hb
        · exact (hpending (.inl hb)).elim
        · obtain ⟨blk', v, cases, d, hblk', htarget⟩ := h.switch_of_mem hb
          rw [hl.kept hc (h.lt b (List.mem_append_right _ hb)), hblk'] at hblk
          rw [← Option.some.inj hblk, htarget]
          exact nofun
      · rw [hl.getElem?_of_ne hc, List.getElem?_append_right hle] at hblk
        refine hl.done _ blk hblk fun hmem => hpending (.inr ?_)
        rwa [Nat.add_sub_cancel' hle] at hmem
      · exact absurd hb hc
  · intro b blk hblk hb
    obtain hb | hb := hb
    · refine ⟨_, (hl.getElem?_current h hb).trans (congrArg _ hblk), List.prefix_rfl,
        fun hmem => ?_⟩
      exact absurd (.inr hmem) (hl.current_left h hb)
    · have hopened : b ∈ r.opened := List.mem_append_right _ hb
      have hne : r.current ≠ some b := fun hc => (h.current b hc).2.1 hopened
      refine ⟨blk, (hl.kept hne (h.lt b hopened)).trans hblk, List.prefix_rfl, fun hmem => ?_⟩
      refine (List.mem_append.mp hmem).resolve_left fun hmem => ?_
      obtain hmem | hmem := List.mem_append.mp (hl.perm.subset (List.mem_append_right _ hmem))
      · exact (List.nodup_append.mp h.nodup).2.2 b hmem b hb rfl
      · have := (hl.fresh b hmem).1
        have := h.lt b hopened
        omega

/-- The current block ends with the target. -/
theorem Leaves.endsAt (h : Inv X ret r) (hl : Leaves r r' target new ahead)
    {B : List (BasicBlock ι)} (hB : Final X r' B) :
    EndsAt (B.map BasicBlock.node) r.place (BasicBlock.node { target }).target := by
  refine endsAt_place _ hl.target.2 fun b blk hb hblk => ?_
  have hblk' : r'.allBb[b]? = some { blk with target } := by
    rw [hl.getElem?_current h hb, hblk]
    rfl
  exact hB.left b _ hblk' (fun hmem => hl.current_left h hb (.inr hmem))
    (fun hc => hl.current_left h hb (.inl hc)) (h.current b hb).2.2

/-- A new block that is neither still to come nor current is left as it was made. -/
theorem Leaves.made (h : Inv X ret r) (hl : Leaves r r' target new ahead) {B : List (BasicBlock ι)}
    (hB : Final X r' B) {i : Nat} {blk : BasicBlock ι} (hi : new[i]? = some blk)
    (hnot : r.allBb.length + i ∉ ahead) :
    B[r.allBb.length + i]? = some blk := by
  have hleft : ¬(r'.current = some (r.allBb.length + i) ∨ r.allBb.length + i ∈ r'.opened) := by
    intro hmem
    obtain hmem | hmem := hl.mem hmem
    · have := h.lt _ hmem
      omega
    · exact hnot hmem
  have hne : r.current ≠ some (r.allBb.length + i) := fun hc => by
    have := (h.current _ hc).1
    omega
  refine hB.left _ _ ?_ (fun hmem => hleft (.inr hmem)) (fun hc => hleft (.inl hc)) fun hX => ?_
  · rw [hl.getElem?_of_ne hne, List.getElem?_append_right (Nat.le_add_right ..),
      Nat.add_sub_cancel_left, hi]
  · have := (h.exempt _ hX).1
    omega

/-- A new block is empty. -/
theorem Leaves.place (h : Inv X ret r) (hl : Leaves r r' target new ahead) {b : Nat}
    (hb : r'.current = some b) : r'.place = some (b, 0) := by
  obtain ⟨blk, hblk, hempty⟩ :=
    hl.empty h (List.mem_append_left _ (Option.mem_toList.mpr hb))
  exact place_eq_some.mpr ⟨hb, blk, hblk, by rw [hempty]; rfl⟩

/-- The rule for blocks that are made empty. -/
theorem Leaves.of_blank (n : Nat)
    (hallBb : r'.allBb = r.current.elim (r.allBb ++ blank ι n) fun b =>
      (r.allBb ++ blank ι n).modify b fun blk => { blk with target })
    (htarget : target ≠ .undefined ∧ ∀ instanceCount epilogue,
      target ≠ .hullShaderWriteOutput instanceCount epilogue)
    (hctx : r'.instanceCtx = r.instanceCtx) (hswitch : r'.switchCtx.Sublist r.switchCtx)
    (hperm : (r'.current.toList ++ r'.pending).Perm (r.pending ++ List.range' r.allBb.length n)) :
    Leaves r r' target (blank ι n) (List.range' r.allBb.length n) := by
  refine ⟨hallBb, htarget, hctx, hswitch, hperm, List.nodup_range', fun b hb => ?_,
    fun i blk hi hnot => ?_⟩
  · obtain ⟨hle, hlt⟩ := List.mem_range'_1.mp hb
    exact ⟨hle, {}, List.getElem?_replicate_of_lt (by omega), rfl⟩
  · have hlt : i < n := by
      have := (List.getElem?_eq_some_iff.mp hi).1
      rwa [blank, List.length_replicate] at this
    exact absurd (List.mem_range'_1.mpr ⟨by omega, by omega⟩) hnot

end Leaves

/-! ## The instructions that leave a block -/

section Ops

variable {b z : Nat} {bs zs : List Nat}

/-- `if` opens two blocks. -/
theorem step_if (r : Reader ι) (inst : ι) : ∃ r', r.step (.if_ inst) = some r' ∧
    Leaves r r' (.conditionalBranch (r.readCondition inst) r.allBb.length (r.allBb.length + 1))
      (blank ι 2) (List.range' r.allBb.length 2) ∧
    r'.current = some r.allBb.length ∧
    r'.frame = { r.frame with endif := (r.allBb.length + 1) :: r.endif } := by
  refine ⟨_, rfl, .of_blank 2 ?_ ⟨nofun, nofun⟩ rfl (List.Sublist.refl _) ?_, rfl, rfl⟩
  · simp only [setTarget, modify, fresh, List.append_assoc]
    rfl
  · exact @List.perm_append_comm _ (List.range' r.allBb.length 2) _

/-- `else` opens a block and closes one. -/
theorem step_else (h : r.endif = b :: bs) : ∃ r', r.step .else_ = some r' ∧
    Leaves r r' (.unconditionalBranch r.allBb.length) (blank ι 1) (List.range' r.allBb.length 1) ∧
    r'.current = some b ∧ r'.frame = { r.frame with endif := r.allBb.length :: bs } := by
  refine ⟨{ (r.fresh {}).setTarget (.unconditionalBranch r.allBb.length) with
    endif := r.allBb.length :: r.endif.tail
    current := some b }, by rw [step, h]; rfl, .of_blank 1 rfl ⟨nofun, nofun⟩ rfl
      (List.Sublist.refl _) ?_, rfl, by rw [h]; rfl⟩
  change (b :: (r.allBb.length :: r.endif.tail ++ r.breakTarget)).Perm
    ((r.endif ++ r.breakTarget) ++ [r.allBb.length])
  rw [h]
  exact (@List.perm_append_comm _ [r.allBb.length] _).cons b

/-- `endif` closes a block. -/
theorem step_endif (h : r.endif = b :: bs) : ∃ r', r.step .endif = some r' ∧
    Leaves r r' (.unconditionalBranch b) (blank ι 0) (List.range' r.allBb.length 0) ∧
    r'.current = some b ∧ r'.frame = { r.frame with endif := bs } := by
  refine ⟨{ r.setTarget (.unconditionalBranch b) with
    endif := r.endif.tail
    current := some b }, by rw [step, h]; rfl, .of_blank 0 ?_ ⟨nofun, nofun⟩ rfl
      (List.Sublist.refl _) ?_, rfl, by rw [h]; rfl⟩
  · rw [blank, List.replicate_zero, List.append_nil]
    rfl
  · change (b :: (r.endif.tail ++ r.breakTarget)).Perm ((r.endif ++ r.breakTarget) ++ [])
    rw [h, List.append_nil]
    rfl

/-- `loop` opens two blocks. -/
theorem step_loop (r : Reader ι) : ∃ r', r.step .loop = some r' ∧
    Leaves r r' (.unconditionalBranch r.allBb.length) (blank ι 2)
      (List.range' r.allBb.length 2) ∧
    r'.current = some r.allBb.length ∧
    r'.frame = { r.frame with
      continueTarget := r.allBb.length :: r.continueTarget
      breakTarget := (r.allBb.length + 1) :: r.breakTarget } := by
  refine ⟨_, rfl, .of_blank 2 ?_ ⟨nofun, nofun⟩ rfl (List.Sublist.refl _) ?_, rfl, rfl⟩
  · simp only [setTarget, modify, fresh, List.append_assoc]
    rfl
  · change (r.allBb.length :: (r.endif ++ (r.allBb.length + 1) :: r.breakTarget)).Perm
      (r.endif ++ r.breakTarget ++ [r.allBb.length, r.allBb.length + 1])
    refine (List.perm_middle.cons _).trans ?_
    exact @List.perm_append_comm _ [r.allBb.length, r.allBb.length + 1] _

/-- `endloop` goes back to the start. -/
theorem step_endloop (hbreak : r.breakTarget = z :: zs) (h : r.continueTarget = b :: bs) :
    ∃ r', r.step .endloop = some r' ∧
      Leaves r r' (.unconditionalBranch b) (blank ι 0) (List.range' r.allBb.length 0) ∧
      r'.current = some z ∧
      r'.frame = { r.frame with continueTarget := bs, breakTarget := zs } := by
  refine ⟨{ r.setTarget (.unconditionalBranch b) with
    continueTarget := r.continueTarget.tail
    breakTarget := r.breakTarget.tail
    current := some z }, by rw [step, h, hbreak]; rfl, .of_blank 0 ?_ ⟨nofun, nofun⟩ rfl
      (List.Sublist.refl _) ?_, rfl, by rw [h, hbreak]; rfl⟩
  · rw [blank, List.replicate_zero, List.append_nil]
    rfl
  · change (z :: (r.endif ++ r.breakTarget.tail)).Perm ((r.endif ++ r.breakTarget) ++ [])
    rw [hbreak, List.append_nil]
    exact List.perm_middle.symm

/-- `endswitch` goes on behind the switch. -/
theorem step_endswitch {p : BlockPtr} {ps : List BlockPtr} (hbreak : r.breakTarget = z :: zs)
    (h : r.switchCtx = p :: ps) : ∃ r', r.step .endswitch = some r' ∧
      Leaves r r' (.unconditionalBranch z) (blank ι 0) (List.range' r.allBb.length 0) ∧
      r'.current = some z ∧
      r'.frame = { r.frame with breakTarget := zs, switchCtx := ps } := by
  refine ⟨{ r.setTarget (.unconditionalBranch z) with
    breakTarget := r.breakTarget.tail
    switchCtx := r.switchCtx.tail
    current := some z }, by rw [step, h, hbreak]; rfl, .of_blank 0 ?_ ⟨nofun, nofun⟩ rfl
      (List.tail_sublist _) ?_, rfl, by rw [h, hbreak]; rfl⟩
  · rw [blank, List.replicate_zero, List.append_nil]
    rfl
  · change (z :: (r.endif ++ r.breakTarget.tail)).Perm ((r.endif ++ r.breakTarget) ++ [])
    rw [hbreak, List.append_nil]
    exact List.perm_middle.symm

/-- Where the jumps go. -/
def exits (r : Reader ι) (ret : Nat) : Jump → Nat
  | .brk => r.breakTarget.headD 0
  | .cont => r.continueTarget.headD 0
  | .ret => ret

/-- There is a place to jump to. -/
def CanExit (r : Reader ι) : Jump → Prop
  | .brk => r.breakTarget ≠ []
  | .cont => r.continueTarget ≠ []
  | .ret => True

/-- The operation of a jump. -/
def exitOp : Jump → Op ι
  | .brk => .break_
  | .cont => .continue_
  | .ret => .ret

/-- The operation of a conditional jump. -/
def exitIfOp (c : ι) : Jump → Op ι
  | .brk => .breakc c
  | .cont => .continuec c
  | .ret => .retc c

/-- A jump leaves its block. -/
theorem step_exit {j : Jump} (h : r.CanExit j) (hret : r.retTarget = some ret)
    (hnested : j = .ret → (r.breakTarget.isEmpty && r.endif.isEmpty) = false) :
    ∃ r', r.step (exitOp j) = some r' ∧
      Leaves r r' (.unconditionalBranch (r.exits ret j)) (blank ι 0)
        (List.range' r.allBb.length 0) ∧
      r'.current = none ∧ r'.frame = r.frame := by
  have hstep : r.step (exitOp j) =
      some { r.setTarget (.unconditionalBranch (r.exits ret j)) with current := none } := by
    cases j with
    | brk =>
      obtain ⟨b, bs, hb⟩ := List.exists_cons_of_ne_nil h
      rw [exitOp, step, exits, hb]
      rfl
    | cont =>
      obtain ⟨b, bs, hb⟩ := List.exists_cons_of_ne_nil h
      rw [exitOp, step, exits, hb]
      rfl
    | ret =>
      rw [exitOp, step, hret, hnested rfl]
      rfl
  refine ⟨_, hstep, .of_blank 0 ?_ ⟨nofun, nofun⟩ rfl (List.Sublist.refl _) ?_, rfl, rfl⟩
  · rw [blank, List.replicate_zero, List.append_nil]
    rfl
  · exact (List.append_nil _).symm ▸ List.Perm.refl _

/-- A conditional jump goes on in a new block. -/
theorem step_exitIf {j : Jump} (h : r.CanExit j) (hret : r.retTarget = some ret) (c : ι) :
    ∃ r', r.step (exitIfOp c j) = some r' ∧
      Leaves r r' (.conditionalBranch (r.readCondition c) (r.exits ret j) r.allBb.length)
        (blank ι 1) (List.range' r.allBb.length 1) ∧
      r'.current = some r.allBb.length ∧ r'.frame = r.frame := by
  have hstep : r.step (exitIfOp c j) = some { (r.fresh {}).setTarget
      (.conditionalBranch (r.readCondition c) (r.exits ret j) r.allBb.length) with
        current := some r.allBb.length } := by
    cases j with
    | brk =>
      obtain ⟨b, bs, hb⟩ := List.exists_cons_of_ne_nil h
      rw [exitIfOp, step, exits, hb]
      rfl
    | cont =>
      obtain ⟨b, bs, hb⟩ := List.exists_cons_of_ne_nil h
      rw [exitIfOp, step, exits, hb]
      rfl
    | ret =>
      rw [exitIfOp, step, hret]
      rfl
  refine ⟨_, hstep, .of_blank 1 rfl ⟨nofun, nofun⟩ rfl (List.Sublist.refl _) ?_, rfl, rfl⟩
  exact @List.perm_append_comm _ [r.allBb.length] _

theorem step_discard (r : Reader ι) (inst : ι) : ∃ r', r.step (.discard inst) = some r' ∧
    Leaves r r' (.conditionalBranch (r.readCondition inst) r.allBb.length (r.allBb.length + 1))
      [{ instructions := [.pixelDiscard]
         target := .unconditionalBranch (r.allBb.length + 1) }, {}] [r.allBb.length + 1] ∧
    r'.current = some (r.allBb.length + 1) ∧ r'.frame = r.frame := by
  refine ⟨_, rfl, ⟨?_, ⟨nofun, nofun⟩, rfl, List.Sublist.refl _, ?_, List.nodup_singleton _, ?_,
    ?_⟩, rfl, rfl⟩
  · simp only [setTarget, modify, fresh, List.append_assoc]
    rfl
  · exact @List.perm_append_comm _ [r.allBb.length + 1] _
  · intro b hb
    obtain rfl := List.mem_singleton.mp hb
    exact ⟨Nat.le_succ _, {}, by rw [Nat.add_sub_cancel_left]; rfl, rfl⟩
  · intro i blk hi hnot
    match i with
    | 0 =>
      rw [← Option.some.inj hi]
      exact nofun
    | 1 => exact absurd (List.mem_singleton_self _) hnot

end Ops

/-! ## Switches -/

/-- What a label does to the target of its switch. -/
def addLabel (l : Option (BitVec 32) × Nat) (blk : BasicBlock ι) : BasicBlock ι :=
  match blk.target with
  | .switch v cases d =>
    { blk with
      target := l.1.elim (.switch v cases l.2) fun value =>
        .switch v (insertCase value l.2 cases) d }
  | _ => blk

/-- Adds labels to a switch. -/
def addLabels (T : List (Option (BitVec 32) × Nat)) (blk : BasicBlock ι) : BasicBlock ι :=
  T.foldl (fun blk l => addLabel l blk) blk

/-- A label leads to its block, the others where they led. -/
theorem lookup_insertCase (value : BitVec 32) (b : Nat) (cases : List (BitVec 32 × Nat))
    (k : BitVec 32) :
    (insertCase value b cases).lookup k =
      (cases.lookup k).or (if k = value then some b else none) := by
  unfold insertCase
  by_cases hk : k = value
  · subst hk
    cases hcase : cases.lookup k with
    | some found =>
      rw [Option.isSome_some, if_pos rfl, hcase, Option.some_or]
    | none =>
      rw [Option.isSome_none, if_neg Bool.false_ne_true, List.lookup_append, hcase,
        List.lookup_cons, beq_self_eq_true, if_pos rfl]
  · have hlookup : List.lookup k [(value, b)] = none := by
      rw [List.lookup_cons, beq_eq_false_iff_ne.mpr hk]
      rfl
    rw [if_neg hk, Option.or_none]
    split
    · rfl
    · rw [List.lookup_append, hlookup, Option.or_none]

/-- Labels leave the instructions and the kind of the block. -/
theorem addLabels_switch {T : List (Option (BitVec 32) × Nat)} (hT : (T.map Prod.fst).Nodup)
    (is : List (Instruction ι)) (v : BasicBlockCondition ι) (cases : List (BitVec 32 × Nat))
    (d : Nat) : ∃ cases' d', addLabels T ⟨is, .switch v cases d⟩ = ⟨is, .switch v cases' d'⟩ ∧
      (∀ k, cases'.lookup k = (cases.lookup k).or (T.lookup (some k))) ∧
      d' = (T.lookup none).getD d := by
  induction T generalizing cases d with
  | nil => exact ⟨cases, d, rfl, fun k => (Option.or_none ..).symm, rfl⟩
  | cons l T ih =>
    obtain ⟨label, b⟩ := l
    obtain ⟨hnot, hrest⟩ := List.nodup_cons.mp hT
    cases label with
    | some value =>
      obtain ⟨cases', d', heq, hcases, hd⟩ := ih hrest (insertCase value b cases) d
      refine ⟨cases', d', heq, fun k => ?_, ?_⟩
      · rw [hcases, lookup_insertCase, Option.or_assoc, List.lookup_cons]
        by_cases hk : k = value
        · subst hk
          rw [if_pos rfl, beq_self_eq_true, Option.some_or]
        · have hbeq : (some k == some value) = false :=
            beq_eq_false_iff_ne.mpr fun h => hk (Option.some.inj h)
          rw [if_neg hk, hbeq, Option.none_or]
      · rw [hd]
        rfl
    | none =>
      obtain ⟨cases', d', heq, hcases, hd⟩ := ih hrest cases b
      have hlookup : T.lookup none = none := by
        refine List.lookup_eq_none_iff.mpr fun l hl => ?_
        refine bne_iff_ne.mpr fun hnone => hnot ?_
        exact List.mem_map.mpr ⟨l, hl, hnone.symm⟩
      refine ⟨cases', d', heq, fun k => ?_, ?_⟩
      · rw [hcases]
        rfl
      · rw [hd, hlookup]
        rfl

theorem addLabel_moves (h : Inv X ret r) {p : BlockPtr} (hp : p ∈ r.switchCtx)
    (l : Option (BitVec 32) × Nat) : Moves X ret r (r.modify p (addLabel l)) := by
  refine modify_moves h (.inr hp) (fun blk => ?_) fun blk v cases d htarget => ?_
  · unfold addLabel
    split
    · exact List.prefix_rfl
    · exact List.prefix_rfl
  · rw [addLabel, htarget]
    obtain ⟨_ | value, b⟩ := l
    · exact ⟨cases, b, rfl⟩
    · exact ⟨insertCase value b cases, d, rfl⟩

/-- The operation of a label. -/
def labelOp : Option (BitVec 32) → Op ι
  | some value => .case_ value
  | none => .default_

/-- What the label does to its switch has no part in the new block. -/
theorem setSwitch_fresh {b : Nat} {blk : BasicBlock ι} {v : BasicBlockCondition ι}
    {cases : List (BitVec 32 × Nat)} {d : Nat} (hp : r.switchCtx.head? = some (some b))
    (hblk : r.allBb[b]? = some blk) (htarget : blk.target = .switch v cases d)
    {f : List (BitVec 32 × Nat) → Nat → List (BitVec 32 × Nat) × Nat} {l : Option (BitVec 32) × Nat}
    (hf : addLabel l blk = { blk with target := .switch v (f cases d).1 (f cases d).2 }) :
    (r.fresh {}).setSwitch f = some ((r.modify (some b) (addLabel l)).fresh {}) := by
  have hlt := (List.getElem?_eq_some_iff.mp hblk).1
  have hblk' : (r.fresh {}).block (some b) = some blk :=
    (List.getElem?_append_left hlt).trans hblk
  have hallBb : ((r.fresh {}).modify (some b) fun blk =>
      { blk with target := .switch v (f cases d).1 (f cases d).2 }).allBb =
        ((r.modify (some b) (addLabel l)).fresh {}).allBb := by
    refine List.ext_getElem? fun i => ?_
    change ((r.allBb ++ blank ι 1).modify b _)[i]? =
      (r.allBb.modify b (addLabel l) ++ blank ι 1)[i]?
    rw [List.getElem?_modify, List.getElem?_append, List.getElem?_append, List.length_modify,
      List.getElem?_modify]
    by_cases hib : b = i
    · subst hib
      rw [if_pos hlt, if_pos hlt, hblk]
      simp only [if_true, Option.map_eq_map, Option.map_some]
      exact congrArg some hf.symm
    · simp only [if_neg hib]
      split
      · rfl
      · exact Option.map_id' ..
  have hctx : (r.fresh {}).switchCtx.head? = some (some b) := hp
  rw [setSwitch, hctx, Option.bind_some, hblk', Option.bind_some, htarget]
  exact congrArg some (congrArg (fun allBb => { r with allBb }) hallBb)

/-- A label in a switch: its block is behind the one before, which falls through. -/
theorem step_label (h : Inv X ret r) {p : BlockPtr} (hp : r.switchCtx.head? = some p)
    (l : Option (BitVec 32)) :
    ∃ r', r.step (labelOp l) = some r' ∧
      Leaves (r.modify p (addLabel (l, r.allBb.length))) r'
        (.unconditionalBranch r.allBb.length) (blank ι 1) (List.range' r.allBb.length 1) ∧
      r'.current = some r.allBb.length ∧ r'.frame = r.frame := by
  obtain ⟨b, blk, v, cases, d, rfl, hblk, htarget⟩ := h.isSwitch p (List.mem_of_head? hp)
  let labelled := r.modify (some b) (addLabel (l, r.allBb.length))
  have hlength : labelled.allBb.length = r.allBb.length := length_modify ..
  let r' : Reader ι := { (labelled.fresh {}).setTarget (.unconditionalBranch r.allBb.length) with
    current := some r.allBb.length }
  have hstep : r.step (labelOp l) = some r' := by
    cases l with
    | none =>
      rw [labelOp, step, setSwitch_fresh hp hblk htarget
        (l := (none, r.allBb.length)) (by rw [addLabel, htarget]; rfl)]
      rfl
    | some value =>
      rw [labelOp, step, setSwitch_fresh hp hblk htarget
        (l := (some value, r.allBb.length)) (by rw [addLabel, htarget]; rfl)]
      rfl
  have hleaves : Leaves labelled r' (.unconditionalBranch r.allBb.length) (blank ι 1)
      (List.range' labelled.allBb.length 1) := by
    refine .of_blank 1 rfl ⟨nofun, nofun⟩ rfl (List.Sublist.refl _) ?_
    rw [hlength]
    exact @List.perm_append_comm _ [r.allBb.length] labelled.pending
  rw [hlength] at hleaves
  exact ⟨r', hstep, hleaves, rfl, rfl⟩

/-- The reader behind SWITCH. -/
def openSwitch (r : Reader ι) (v : BasicBlockCondition ι) : Reader ι :=
  { (r.fresh {}).setTarget (.switch v [] r.allBb.length) with
    breakTarget := r.allBb.length :: r.breakTarget
    switchCtx := r.current :: r.switchCtx
    current := none }

section OpenSwitch

variable {v : BasicBlockCondition ι} {b : Nat}

theorem openSwitch_getElem?_of_ne (hb : r.current = some b) {i : Nat} (hi : b ≠ i) :
    (r.openSwitch v).allBb[i]? = (r.allBb ++ blank ι 1)[i]? :=
  (getElem?_modify (r.fresh {}) ..).trans (if_neg fun h => hi (Option.some.inj (hb.symm.trans h)))

theorem openSwitch_getElem? (h : Inv X ret r) (hb : r.current = some b) :
    (r.openSwitch v).allBb[b]? =
      r.allBb[b]?.map fun blk => { blk with target := .switch v [] r.allBb.length } := by
  refine ((getElem?_modify (r.fresh {}) ..).trans (if_pos hb)).trans ?_
  exact congrArg _ (List.getElem?_append_left (h.current b hb).1)

theorem openSwitch_opened (hb : r.current = some b) :
    (r.openSwitch v).opened.Perm (r.allBb.length :: b :: r.opened) := by
  have hswitches : (r.openSwitch v).switches = b :: r.switches := by
    rw [switches, openSwitch, hb]
    rfl
  have hpending : (r.openSwitch v).pending.Perm (r.allBb.length :: r.pending) := List.perm_middle
  unfold opened
  rw [hswitches]
  refine (hpending.append_right _).trans ?_
  exact (List.perm_middle (a := b)).cons _

/-- A switch: its block is open until its end, and nothing is read to before its first label. -/
theorem openSwitch_moves (h : Inv X ret r) (hb : r.current = some b) :
    Moves X ret r (r.openSwitch v) := by
  obtain ⟨hlt, hnot, hX⟩ := h.current b hb
  have hperm := openSwitch_opened (v := v) hb
  have hlength : (r.openSwitch v).allBb.length = r.allBb.length + 1 :=
    (length_modify ..).trans List.length_append
  have hnone : (r.openSwitch v).current = none := rfl
  have hold : ∀ c ∈ r.opened, (r.openSwitch v).allBb[c]? = r.allBb[c]? := fun c hc => by
    rw [openSwitch_getElem?_of_ne hb fun hbc => hnot (hbc ▸ hc),
      List.getElem?_append_left (h.lt c hc)]
  refine .of h (hlength ▸ Nat.le_succ _) rfl ?_ ?_ ?_ ?_ ?_ ?_ ?_ ?_
  · refine hperm.nodup_iff.mpr (List.nodup_cons.mpr ⟨fun hmem => ?_,
      List.nodup_cons.mpr ⟨hnot, h.nodup⟩⟩)
    obtain hmem | hmem := List.mem_cons.mp hmem
    · omega
    · exact lt_irrefl _ (h.lt _ hmem)
  · intro c hc
    obtain rfl | hc := List.mem_cons.mp (hperm.subset hc)
    · refine ⟨hlength ▸ Nat.lt_succ_self _, fun hX => ?_, .inr (.inl le_rfl)⟩
      exact lt_irrefl _ (h.exempt _ hX).1
    · obtain rfl | hc := List.mem_cons.mp hc
      · exact ⟨hlength ▸ hlt.trans (Nat.lt_succ_self _), hX, .inr (.inr hb)⟩
      · exact ⟨hlength ▸ (h.lt c hc).trans (Nat.lt_succ_self _), fun hX => (h.exempt c hX).2 hc,
          .inl hc⟩
  · intro c hc
    rw [hnone] at hc
    exact nomatch hc
  · intro c hc blk hblk
    obtain rfl | hc := List.mem_cons.mp (List.perm_middle.subset hc)
    · rw [openSwitch_getElem?_of_ne hb hlt.ne, List.getElem?_append_right le_rfl,
        Nat.sub_self] at hblk
      rw [← Option.some.inj hblk]
    · rw [hold c (List.mem_append_left _ hc)] at hblk
      exact h.empty c hc blk hblk
  · intro p hp
    obtain hp | hp := List.mem_cons.mp (show p ∈ r.current :: r.switchCtx from hp)
    · exact ⟨b, _, v, [], r.allBb.length, hp.trans hb, (openSwitch_getElem? h hb).trans
        (congrArg _ (List.getElem?_eq_getElem hlt)), rfl⟩
    · obtain ⟨c, blk, v, cases, d, rfl, hblk, htarget⟩ := h.isSwitch p hp
      have hc : c ∈ r.opened := List.mem_append_right _ (mem_switches.mpr hp)
      exact ⟨c, blk, v, cases, d, rfl, (hold c hc).trans hblk, htarget⟩
  · intro c hc _ hne
    rw [openSwitch_getElem?_of_ne hb fun hbc => hne (hb.trans (congrArg some hbc)),
      List.getElem?_append_left hc]
  · intro c blk hc hblk hleft
    have hc' := (List.getElem?_eq_some_iff.mp hblk).1
    refine absurd (hperm.mem_iff.mpr ?_) hleft
    obtain hc | hc | hc := hc
    · exact List.mem_cons_of_mem _ (List.mem_cons_of_mem _ hc)
    · obtain rfl : c = r.allBb.length := by omega
      exact List.mem_cons_self
    · rw [Option.some.inj (hc.symm.trans hb)]
      exact List.mem_cons_of_mem _ List.mem_cons_self
  · intro c blk hblk hc
    have hswitches : c ∈ (r.openSwitch v).switches ↔ some c ∈ r.current :: r.switchCtx :=
      mem_switches
    obtain hc | hc := hc
    · obtain rfl := Option.some.inj (hc.symm.trans hb)
      refine ⟨_, (openSwitch_getElem? h hb).trans (congrArg _ hblk), List.prefix_rfl, fun _ => ?_⟩
      exact hswitches.mpr (hc ▸ List.mem_cons_self)
    · refine ⟨blk, (hold c (List.mem_append_right _ hc)).trans hblk, List.prefix_rfl, fun _ => ?_⟩
      exact hswitches.mpr (List.mem_cons_of_mem _ (mem_switches.mp hc))

end OpenSwitch

end Reader

end ControlFlow

end Dxmt
