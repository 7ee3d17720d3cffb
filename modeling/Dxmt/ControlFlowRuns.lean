import Dxmt.ControlFlowLayout

/-!
# A shader and its blocks

The walk through the final blocks is what the shader does (`readControlFlow_runs`): its statements
are walked in their layout, the phases of a hull shader one after the other by every thread, and
what is behind them.
-/

namespace Dxmt

namespace ControlFlow

open Structured

variable {ι : Type} {σ : Type} {M : Machine ι σ} {ret : Nat}

/-! ## The jumps of statements -/

theorem Body.Valid.find {place : Place} {live : Bool} {code found : Body ι} {l : Option (BitVec 32)}
    (h : Body.Valid place live code) (hfind : code.find l = some found) :
    Body.Valid place true found := by
  induction code generalizing live with
  | nil => exact nomatch hfind
  | instr _ _ ih => exact ih h hfind
  | instrIf _ _ ih => exact ih h hfind
  | ite _ _ _ _ ih => exact ih h.2 hfind
  | iteElse _ _ _ _ _ _ ih => exact ih h.2.2 hfind
  | loop _ _ _ ih => exact ih h.2 hfind
  | switch _ _ _ _ ih => exact ih h.2.2.2 hfind
  | label l' rest ih =>
    rw [Code.find] at hfind
    split at hfind
    · rw [← Option.some.inj hfind]
      exact h.2
    · exact ih h.2 hfind
  | exit _ _ ih => exact ih h.2 hfind
  | exitIf _ _ _ ih => exact ih h.2 hfind

theorem Body.Valid.entry {place : Place} {live : Bool} {code : Body ι}
    (h : Body.Valid place live code) (k : BitVec 32) : Body.Valid place true (code.entry k) := by
  unfold Code.entry
  cases hfind : code.find (some k) with
  | some found => exact h.find hfind
  | none =>
    cases hfind' : code.find none with
    | some found => exact h.find hfind'
    | none => exact trivial

theorem allows_of_nested {place : Place} {breakable labels : Bool} {j : Jump}
    (h : j = .ret ∨ Place.allows { place with breakable, nested := true, labels } j = true)
    (hj : j = .brk → place.breakable = breakable) : j = .ret ∨ place.allows j = true := by
  cases j with
  | brk => exact .inr ((hj rfl).trans (h.resolve_left nofun))
  | cont => exact .inr (h.resolve_left nofun)
  | ret => exact .inl rfl

/-- Statements are left by a jump that may stand there, or by a return. -/
theorem Body.Valid.exec {place : Place} {live : Bool} {code : Body ι} {phase : BitVec 32} {s t : σ}
    {o : Option Jump} (h : Body.Valid place live code)
    (hexec : Exec M (translation phase) code s o t) {j : Jump} (hj : o = some j) :
    j = .ret ∨ place.allows j = true := by
  induction hexec generalizing place live j with
  | nil => exact nomatch hj
  | instr _ ih => exact ih h hj
  | instrIf _ ih => exact ih h hj
  | iteSkip _ _ ih => exact ih h.2 hj
  | iteDone _ _ _ _ ih => exact ih h.2 hj
  | iteJump _ _ ih => exact allows_of_nested (ih h.1 hj) fun _ => rfl
  | thenDone _ _ _ _ ih => exact ih h.2.2 hj
  | thenJump _ _ ih => exact allows_of_nested (ih h.1 hj) fun _ => rfl
  | elseDone _ _ _ _ ih => exact ih h.2.2 hj
  | elseJump _ _ ih => exact allows_of_nested (ih h.2.1 hj) fun _ => rfl
  | loopAgain _ _ _ _ ih => exact ih h hj
  | loopBreak _ _ _ ih => exact ih h.2 hj
  | loopRet _ _ => exact .inl (Option.some.inj hj).symm
  | switchDone _ _ _ _ ih => exact ih h.2.2.2 hj
  | switchJump hne _ ih =>
    refine allows_of_nested (ih (h.2.2.1.entry _) hj) fun hbrk => ?_
    exact absurd ((Option.some.inj hj).trans hbrk) hne
  | label _ ih => exact ih h.2 hj
  | exit => exact .inr (Option.some.inj hj ▸ h.1)
  | exitJump _ => exact Option.some.inj hj ▸ h.1
  | exitSkip _ _ ih => exact ih h.2 hj

namespace Reader

variable {X : Nat → Prop} {r r' : Reader ι} {code : Body ι} {B : List (BasicBlock ι)} {s t : σ}

/-- The end of a walk. -/
theorem halts_return (hB : B[bbReturn]? = some { target := .return }) :
    (∃ n, Halts M (B.map BasicBlock.node) n (bbReturn, 0) s t) ↔ s = t := by
  have hnode : (B.map BasicBlock.node)[bbReturn]? = some ⟨[], .stop⟩ :=
    (List.getElem?_map ..).trans (congrArg _ hB)
  constructor
  · rintro ⟨n, hwalk⟩
    cases hwalk with
    | stop hB' ht =>
      obtain rfl := Option.some.inj (hnode.symm.trans hB')
      rfl
    | step hB' ht _ =>
      obtain rfl := Option.some.inj (hnode.symm.trans hB')
      exact nomatch ht
  · rintro rfl
    exact ⟨0, .stop hnode rfl⟩

/-- The walk through the statements of a shader or phase goes on where they return. -/
theorem Built.halts (h : Built X ret code r r' []) (hvalid : code.Valid {} true) (hB : Final X r' B)
    {p : Nat × Nat} (hp : r.place = some p)
    (hends : EndsAt (B.map BasicBlock.node) r'.place (.jump ret)) :
    (∃ n, Halts M (B.map BasicBlock.node) n p s t) ↔
      ∃ o s', Exec M (translation r.phase) code s o s' ∧
        ∃ n, Halts M (B.map BasicBlock.node) n (ret, 0) s' t := by
  have hlayout := h.layout B hB
  rw [hp] at hlayout
  rw [halts_iff hlayout]
  constructor
  · rintro ⟨o, s', hexec, n, hlands⟩
    refine ⟨o, s', hexec, ?_⟩
    cases o with
    | none =>
      obtain ⟨q, hq, hwalk⟩ := hlands
      rw [hq] at hends
      obtain ⟨m, -, hwalk⟩ := hwalk.of_jump hends
      exact ⟨m, hwalk⟩
    | some j =>
      obtain rfl : j = .ret := (hvalid.exec hexec rfl).resolve_right (by cases j <;> nofun)
      exact ⟨n, hlands⟩
  · rintro ⟨o, s', hexec, n, hwalk⟩
    cases o with
    | none => exact ⟨none, s', hexec, n + 1, hlayout.lands_jump rfl hexec hends hwalk⟩
    | some j =>
      obtain rfl : j = .ret := (hvalid.exec hexec rfl).resolve_right (by cases j <;> nofun)
      exact ⟨some .ret, s', hexec, n, hwalk⟩

/-! ## The phases of a hull shader -/

/-- The reader between two phases. -/
structure Between (count : BitVec 32) (r : Reader ι) : Prop where
  inv : Inv (fun _ => False) bbReturn r
  endif : r.endif = []
  breakTarget : r.breakTarget = []
  switchCtx : r.switchCtx = []
  instanceCtx : r.instanceCtx = []
  current : ∃ b, r.current = some b ∧ b ≠ bbReturn
  count : r.outputControlPointCount = count

/-- The reader at the begin of a phase. -/
def atPhase (r : Reader ι) (phase instanceCount : BitVec 32) (passthrough : Bool) : Reader ι :=
  { ((r.fresh {}).fresh { instructions := [.sync] }).setTarget
      (.instanceBarrier instanceCount r.allBb.length (r.allBb.length + 1)) with
    phase
    instanceCtx := r.current :: r.instanceCtx
    current := some r.allBb.length
    noControlPointPhasePassthrough := passthrough }

variable {count phase n : BitVec 32} {passthrough : Bool} {b : Nat}

variable (ι) in
/-- The blocks before the first phase. -/
def phaseBlocks : List (BasicBlock ι) := [{}, { instructions := [.sync] }]

theorem atPhase_allBb (hb : r.current = some b) : (r.atPhase phase n passthrough).allBb =
    (r.allBb ++ phaseBlocks ι).modify b fun blk =>
      { blk with target := .instanceBarrier n r.allBb.length (r.allBb.length + 1) } := by
  simp only [atPhase, setTarget, modify, fresh, hb, Option.elim_some, List.append_assoc]
  rfl

theorem atPhase_length : (r.atPhase phase n passthrough).allBb.length = r.allBb.length + 2 :=
  (length_modify ..).trans (by simp only [fresh, List.length_append, List.length_singleton])

theorem atPhase_getElem? (phase n : BitVec 32) (passthrough : Bool) (hb : r.current = some b)
    (hlt : b < r.allBb.length) :
    (r.atPhase phase n passthrough).allBb[b]? = r.allBb[b]?.map fun blk =>
      { blk with target := .instanceBarrier n r.allBb.length (r.allBb.length + 1) } := by
  rw [atPhase_allBb hb, List.getElem?_modify, List.getElem?_append_left hlt]
  simp only [if_true]
  rfl

theorem atPhase_getElem?_of_ne (hb : r.current = some b) {i : Nat} (hi : b ≠ i) :
    (r.atPhase phase n passthrough).allBb[i]? = (r.allBb ++ phaseBlocks ι)[i]? := by
  rw [atPhase_allBb hb, List.getElem?_modify]
  simp only [if_neg hi]
  exact Option.map_id' ..

theorem atPhase_place (hb : r.current = some b) (hlt : b < r.allBb.length) :
    (r.atPhase phase n passthrough).place = some (r.allBb.length, 0) := by
  refine place_eq_some.mpr ⟨rfl, {}, ?_, rfl⟩
  rw [atPhase_getElem?_of_ne hb hlt.ne, List.getElem?_append_right le_rfl, Nat.sub_self]
  rfl

/-- The count of a phase is in the block before it. -/
theorem step_instanceCount (hb : r.current = some b) (hlt : b < r.allBb.length) (n' : BitVec 32) :
    (r.atPhase phase n passthrough).step (.dclHsPhaseInstanceCount n') =
      some (r.atPhase phase n' passthrough) := by
  have hblock : (r.atPhase phase n passthrough).block (some b) = r.allBb[b]?.map fun blk =>
      { blk with target := .instanceBarrier n r.allBb.length (r.allBb.length + 1) } :=
    atPhase_getElem? _ _ _ hb hlt
  have hctx : (r.atPhase phase n passthrough).instanceCtx.head? = some (some b) :=
    congrArg some hb
  rw [step, hctx, Option.bind_some, hblock, List.getElem?_eq_getElem hlt, Option.map_some,
    Option.bind_some]
  have hallBb : ((r.atPhase phase n passthrough).modify (some b) fun blk =>
      { blk with target := .instanceBarrier n' r.allBb.length (r.allBb.length + 1) }).allBb =
        (r.atPhase phase n' passthrough).allBb := by
    change (r.atPhase phase n passthrough).allBb.modify b _ = _
    rw [atPhase_allBb hb, atPhase_allBb hb, List.modify_modify_eq]
    rfl
  have hvoid : (r.atPhase phase n passthrough).bbVoid =
      (r.atPhase phase n' passthrough).bbVoid := by
    simp only [atPhase, setTarget, modify, fresh, hb, Option.elim_some]
  exact congrArg₂ (fun allBb bbVoid =>
    some { r.atPhase phase n passthrough with allBb, bbVoid }) hallBb hvoid

theorem run_atPhase (h : Between count r) (p : HullPhase ι) (ops : List (Op ι)) :
    r.run (p.ops ++ ops) = (r.atPhase (p.next r.phase) (p.count count)
      ((p.kind matches .controlPoint) || r.noControlPointPhasePassthrough)).run
        (p.body.ops ++ .ret :: ops) := by
  obtain ⟨b, hb, -⟩ := h.current
  have hlt := (h.inv.current b hb).1
  have hcount := h.count
  obtain ⟨kind, instanceCount, body⟩ := p
  have hbegin : ∃ op n, r.step op =
      some (r.atPhase (HullPhase.next ⟨kind, instanceCount, body⟩ r.phase) n
        ((kind matches .controlPoint) || r.noControlPointPhasePassthrough)) ∧
      HullPhase.ops ⟨kind, instanceCount, body⟩ =
        op :: ((instanceCount.map Op.dclHsPhaseInstanceCount).toList ++ (body.ops ++ [.ret])) ∧
      HullPhase.count ⟨kind, instanceCount, body⟩ count = instanceCount.getD n := by
    cases kind with
    | controlPoint => exact ⟨_, count, by rw [← hcount]; rfl, rfl, rfl⟩
    | fork => exact ⟨_, 1, rfl, rfl, rfl⟩
    | join => exact ⟨_, 1, rfl, rfl, rfl⟩
  obtain ⟨op, n, hstep, hops, hn⟩ := hbegin
  rw [hops, hn, List.cons_append, run_cons, hstep, Option.bind_some, List.append_assoc,
    List.append_assoc, List.singleton_append]
  cases instanceCount with
  | none => rfl
  | some n' =>
    rw [Option.map_some, Option.toList_some, List.singleton_append, run_cons,
      step_instanceCount hb hlt]
    rfl

/-- Nothing is open but the current block. -/
theorem Between.opened (h : Between count r) : r.opened = [] := by
  unfold Reader.opened pending switches
  rw [h.endif, h.breakTarget, h.switchCtx]
  rfl

theorem atPhase_inv (phase n : BitVec 32) (passthrough : Bool) (h : Between count r)
    (hb : r.current = some b) :
    Inv (fun c => c = r.allBb.length + 1) (r.allBb.length + 1)
      (r.atPhase phase n passthrough) := by
  have hlt := (h.inv.current b hb).1
  have hopened : (r.atPhase phase n passthrough).opened = [] := h.opened
  have hcurrent : (r.atPhase phase n passthrough).current = some r.allBb.length := rfl
  have hctx : (r.atPhase phase n passthrough).instanceCtx = [some b] := by
    rw [atPhase, h.instanceCtx, hb]
  have hpending : (r.atPhase phase n passthrough).pending = [] :=
    (List.append_eq_nil_iff.mp hopened).1
  have hblk := atPhase_getElem? phase n passthrough hb hlt
  rw [List.getElem?_eq_getElem hlt, Option.map_some] at hblk
  refine ⟨?_, ?_, ?_, ?_, ?_, ?_, ?_, ?_, ?_⟩
  · rw [hopened]
    exact List.nodup_nil
  · rw [hopened]
    exact nofun
  · rintro c rfl
    rw [atPhase_length, hopened]
    exact ⟨by omega, nofun⟩
  · intro c hc
    obtain rfl := Option.some.inj (hcurrent.symm.trans hc)
    rw [atPhase_length, hopened]
    exact ⟨by omega, nofun, by omega⟩
  · rw [hpending]
    exact nofun
  · rw [show (r.atPhase phase n passthrough).switchCtx = [] from h.switchCtx]
    exact nofun
  · intro p hp
    rw [hctx] at hp
    obtain rfl := Option.some.inj hp
    refine ⟨b, rfl, by rw [atPhase_length]; omega, by rw [hopened]; exact nofun, ?_⟩
    rw [hcurrent]
    exact fun heq => hlt.ne (Option.some.inj heq).symm
  · rw [retTarget, hctx]
    change Option.bind (Reader.allBb _)[b]? _ = _
    rw [hblk]
    rfl
  · intro c blk hc _ hne hX
    by_cases hbc : b = c
    · subst hbc
      rw [← Option.some.inj (hblk.symm.trans hc)]
      exact nofun
    · rw [atPhase_getElem?_of_ne hb hbc] at hc
      have hc' := (List.getElem?_eq_some_iff.mp hc).1
      rw [List.length_append] at hc'
      have hlt' : c < r.allBb.length := by
        have hlength : (phaseBlocks ι).length = 2 := rfl
        have hcne : r.allBb.length ≠ c := fun heq => hne (hcurrent.trans (congrArg some heq))
        omega
      rw [List.getElem?_append_left hlt'] at hc
      refine h.inv.closed c blk hc (by rw [h.opened]; exact nofun) ?_ id
      rw [hb]
      exact fun heq => hbc (Option.some.inj heq)

theorem atPhase_final (h : Between count r) (hb : r.current = some b) {B : List (BasicBlock ι)}
    (hB : Final (fun c => c = r.allBb.length + 1) (r.atPhase phase n passthrough) B) :
    Final (fun _ => False) r B ∧ EndsAt (B.map BasicBlock.node) r.place
      (.branch (.threadBelow n) r.allBb.length (r.allBb.length + 1)) := by
  have hlt := (h.inv.current b hb).1
  have hopened : (r.atPhase phase n passthrough).opened = [] := h.opened
  have hcurrent : (r.atPhase phase n passthrough).current = some r.allBb.length := rfl
  have hleft : ∀ c < r.allBb.length, ∀ blk, (r.atPhase phase n passthrough).allBb[c]? = some blk →
      B[c]? = some blk := fun c hc blk hblk =>
    hB.left c blk hblk (by rw [hopened]; exact nofun)
      (by rw [hcurrent]; exact fun heq => hc.ne (Option.some.inj heq).symm) (by omega)
  have hblk : ∀ blk, r.allBb[b]? = some blk → B[b]? =
      some { blk with target := .instanceBarrier n r.allBb.length (r.allBb.length + 1) } :=
    fun blk hblk => hleft b hlt _ ((atPhase_getElem? _ _ _ hb hlt).trans (congrArg _ hblk))
  refine ⟨⟨fun c blk hc _ hne _ => ?_, fun c blk hc hbegun => ?_⟩,
    endsAt_place (.instanceBarrier n r.allBb.length (r.allBb.length + 1)) nofun
      fun c blk hc hblk' => ?_⟩
  · have hclt := (List.getElem?_eq_some_iff.mp hc).1
    refine hleft c hclt blk ?_
    rw [atPhase_getElem?_of_ne hb fun hbc => hne (hb.trans (congrArg some hbc)),
      List.getElem?_append_left hclt, hc]
  · have hcb : r.current = some c := hbegun.resolve_right fun hmem => by
      have hmem : c ∈ r.opened := List.mem_append_right _ hmem
      rw [h.opened] at hmem
      exact nomatch hmem
    obtain rfl := Option.some.inj (hb.symm.trans hcb)
    exact ⟨_, hblk blk hc, List.prefix_rfl⟩
  · obtain rfl := Option.some.inj (hb.symm.trans hc)
    exact hblk blk hblk'

/-- The reader behind a return that is not nested. -/
def returned (r : Reader ι) (ret : Nat) : Reader ι :=
  { r.setTarget (.unconditionalBranch ret) with
    current := some ret
    instanceCtx := r.instanceCtx.tail }

theorem step_ret (hret : r.retTarget = some ret) (hendif : r.endif = [])
    (hbreak : r.breakTarget = []) : r.step .ret = some (r.returned ret) := by
  rw [step, hret, hendif, hbreak]
  rfl

theorem returned_getElem?_of_ne {i : Nat} (hi : r.current ≠ some i) :
    (r.returned ret).allBb[i]? = r.allBb[i]? :=
  (getElem?_modify ..).trans (if_neg hi)

theorem returned_getElem? (hb : r.current = some b) : (r.returned ret).allBb[b]? =
    r.allBb[b]?.map fun blk => { blk with target := .unconditionalBranch ret } :=
  (getElem?_modify ..).trans (if_pos hb)

/-- Behind the return of a phase the block that all threads come to is read to. -/
theorem returned_between (h : Inv (fun c => c = ret) ret r) (hendif : r.endif = [])
    (hbreak : r.breakTarget = []) (hswitch : r.switchCtx = []) {p : BlockPtr}
    (hctx : r.instanceCtx = [p]) (hcount : r.outputControlPointCount = count)
    (hret : ret ≠ bbReturn) : Between count (r.returned ret) := by
  have hopened : (r.returned ret).opened = r.opened := rfl
  have hctx' : (r.returned ret).instanceCtx = [] := by rw [returned, hctx]; rfl
  have hlength : (r.returned ret).allBb.length = r.allBb.length := length_modify ..
  obtain ⟨hlt, hnot⟩ := h.exempt ret rfl
  have hnil : r.opened = [] := by
    unfold Reader.opened pending switches
    rw [hendif, hbreak, hswitch]
    rfl
  have hpending : (r.returned ret).pending = [] := (List.append_eq_nil_iff.mp hnil).1
  refine ⟨⟨hopened ▸ h.nodup, ?_, nofun, ?_, ?_, ?_, ?_, ?_, ?_⟩, hendif, hbreak, hswitch, hctx',
    ⟨ret, rfl, hret⟩, hcount⟩
  · rw [hopened, hnil]
    exact nofun
  · intro b hb
    obtain rfl := Option.some.inj hb
    exact ⟨hlength ▸ hlt, hopened ▸ hnot, id⟩
  · rw [hpending]
    exact nofun
  · rw [show (r.returned ret).switchCtx = [] from hswitch]
    exact nofun
  · rw [hctx']
    exact nofun
  · rw [retTarget, hctx']
  · intro b blk hblk hnot' hne _
    by_cases hb : r.current = some b
    · rw [returned_getElem? hb, Option.map_eq_some_iff] at hblk
      obtain ⟨blk', -, rfl⟩ := hblk
      exact nofun
    · rw [returned_getElem?_of_ne hb] at hblk
      exact h.closed b blk hblk hnot' hb fun hX => hne (congrArg some hX.symm)

theorem returned_final (h : Inv (fun c => c = ret) ret r) (hnil : r.opened = [])
    {B : List (BasicBlock ι)} (hB : Final (fun _ => False) (r.returned ret) B) :
    Final (fun c => c = ret) r B ∧ EndsAt (B.map BasicBlock.node) r.place (.jump ret) := by
  have hleft : ∀ b blk, (r.returned ret).allBb[b]? = some blk → b ≠ ret → B[b]? = some blk :=
    fun b blk hblk hne => hB.left b blk hblk
      (by rw [show (r.returned ret).opened = [] from hnil]; exact nofun)
      (fun hc => hne (Option.some.inj hc).symm) id
  have hblk : ∀ b blk, r.current = some b → r.allBb[b]? = some blk →
      B[b]? = some { blk with target := .unconditionalBranch ret } := fun b blk hb hblk =>
    hleft b _ ((returned_getElem? hb).trans (congrArg _ hblk)) (h.current b hb).2.2
  refine ⟨⟨fun b blk hb _ hne hX => ?_, fun b blk hb hbegun => ?_⟩,
    endsAt_place (.unconditionalBranch ret) nofun hblk⟩
  · exact hleft b blk ((returned_getElem?_of_ne hne).trans hb) hX
  · have hcb : r.current = some b := hbegun.resolve_right fun hmem => by
      have hmem : b ∈ r.opened := List.mem_append_right _ hmem
      rw [hnil] at hmem
      exact nomatch hmem
    exact ⟨_, hblk b blk hcb hb, List.prefix_rfl⟩

variable (M) in
/-- A walk from the place that is read to. -/
def Walk (B : List (BasicBlock ι)) (r : Reader ι) (s t : σ) : Prop :=
  ∃ p n, r.place = some p ∧ Halts M (B.map BasicBlock.node) n p s t

theorem walk_iff {B : List (BasicBlock ι)} {p : Nat × Nat} (hp : r.place = some p) :
    Walk M B r s t ↔ ∃ n, Halts M (B.map BasicBlock.node) n p s t := by
  constructor
  · rintro ⟨q, n, hq, hwalk⟩
    obtain rfl := Option.some.inj (hp.symm.trans hq)
    exact ⟨n, hwalk⟩
  · rintro ⟨n, hwalk⟩
    exact ⟨p, n, hp, hwalk⟩

/-- **A phase** is its statements in the threads below its count, and then all threads meet. -/
theorem run_phase (M : Machine ι σ) (h : Between count r) {p : HullPhase ι}
    (hvalid : p.body.Valid {} true) (ops : List (Op ι)) :
    ∃ r', r.run (p.ops ++ ops) = r'.run ops ∧ Between count r' ∧ r'.phase = p.next r.phase ∧
      r'.noControlPointPhasePassthrough =
        ((p.kind matches .controlPoint) || r.noControlPointPhasePassthrough) ∧
      ∀ B, Final (fun _ => False) r' B → Final (fun _ => False) r B ∧ ∀ s t, Walk M B r s t ↔
        if M.test (.threadBelow (p.count count)) s then
          ∃ o s', Exec M (translation (p.next r.phase)) p.body s o s' ∧
            Walk M B r' (M.instr (.instruction .sync) s') t
        else Walk M B r' (M.instr (.instruction .sync) s) t := by
  obtain ⟨b, hb, hne⟩ := h.current
  have hlt := (h.inv.current b hb).1
  have hinv := atPhase_inv (p.next r.phase) (p.count count)
    ((p.kind matches .controlPoint) || r.noControlPointPhasePassthrough) h hb
  obtain ⟨r₁, T, hbuilt⟩ := run_body hvalid hinv ⟨nofun, nofun, nofun, nofun, fun _ => rfl⟩
  obtain rfl := hbuilt.eq_nil (labels_of_valid hvalid rfl)
  have hendif : r₁.endif = r.endif := (congrArg Reader.endif hbuilt.frame :)
  have hbreak : r₁.breakTarget = r.breakTarget := (congrArg Reader.breakTarget hbuilt.frame :)
  have hswitch : r₁.switchCtx = r.switchCtx := (congrArg Reader.switchCtx hbuilt.frame :)
  have hctx : r₁.instanceCtx = r.current :: r.instanceCtx :=
    (congrArg Reader.instanceCtx hbuilt.frame :)
  have hcount : r₁.outputControlPointCount = r.outputControlPointCount :=
    (congrArg Reader.outputControlPointCount hbuilt.frame :)
  rw [h.endif] at hendif
  rw [h.breakTarget] at hbreak
  rw [h.switchCtx] at hswitch
  rw [h.instanceCtx] at hctx
  rw [h.count] at hcount
  have hinv₁ := hbuilt.moves.inv
  have hnil : r₁.opened = [] := by
    unfold Reader.opened pending switches
    rw [hendif, hbreak, hswitch]
    rfl
  refine ⟨r₁.returned (r.allBb.length + 1), ?_,
    returned_between hinv₁ hendif hbreak hswitch hctx hcount (by unfold bbReturn; omega),
    (congrArg Reader.phase hbuilt.frame :),
    (congrArg Reader.noControlPointPhasePassthrough hbuilt.frame :), fun B hB => ?_⟩
  · rw [run_atPhase h, run_append, hbuilt.run, Option.bind_some, run_cons,
      step_ret hinv₁.ret hendif hbreak, Option.bind_some]
  · obtain ⟨hB₁, hreturn⟩ := returned_final hinv₁ hnil hB
    obtain ⟨hB₀, hbarrier⟩ := atPhase_final h hb (hbuilt.moves.final B hB₁)
    have hplace : r.place = some (b, (r.allBb[b]).instructions.length) :=
      place_eq_some.mpr ⟨hb, _, List.getElem?_eq_getElem hlt, rfl⟩
    rw [hplace] at hbarrier
    have hbody : ∀ s t, (∃ n, Halts M (B.map BasicBlock.node) n (r.allBb.length, 0) s t) ↔ _ :=
      fun s t => hbuilt.halts (M := M) (s := s) (t := t) hvalid hB₁ (atPhase_place hb hlt) hreturn
    have hsync : ∀ s t, (∃ n, Halts M (B.map BasicBlock.node) n (r.allBb.length + 1, 0) s t) ↔
        Walk M B (r₁.returned (r.allBb.length + 1)) (M.instr (.instruction .sync) s) t := by
      have hblk : (r₁.returned (r.allBb.length + 1)).allBb[r.allBb.length + 1]? =
          some { instructions := [.sync] } := by
        rw [returned_getElem?_of_ne fun hc => (hinv₁.current _ hc).2.2 rfl,
          hbuilt.moves.exempt _ rfl, atPhase_getElem?_of_ne hb (by omega),
          List.getElem?_append_right (by omega), Nat.add_sub_cancel_left]
        rfl
      obtain ⟨blk, hfinal, rest, hrest⟩ := hB.begun _ _ hblk (.inl rfl)
      intro s t
      rw [walk_iff (place_eq_some.mpr ⟨rfl, _, hblk, rfl⟩)]
      have hinstr : InstrAt (B.map BasicBlock.node) (some (r.allBb.length + 1, 0))
          [Effect.instruction .sync] := by
        refine instrAt_of_getElem? hfinal ?_
        rw [BasicBlock.effects, ← hrest]
        exact List.prefix_append ..
      exact exists_congr fun n => halts_instr hinstr
    refine ⟨hB₀, fun s t => ?_⟩
    rw [walk_iff hplace]
    cases hthread : M.test (.threadBelow (p.count count)) s with
    | true =>
      rw [if_pos rfl]
      have hnext : (∃ n, Halts M (B.map BasicBlock.node) n
          (b, (r.allBb[b]).instructions.length) s t) ↔
            ∃ n, Halts M (B.map BasicBlock.node) n (r.allBb.length, 0) s t := by
        constructor
        · rintro ⟨n, hwalk⟩
          exact (hwalk.of_branchTrue hbarrier hthread).imp fun _ hm => hm.2
        · rintro ⟨n, hwalk⟩
          exact ⟨n + 1, hwalk.branchTrue hbarrier hthread⟩
      rw [hnext, hbody]
      simp only [hsync]
      rfl
    | false =>
      rw [if_neg Bool.false_ne_true, ← hsync]
      constructor
      · rintro ⟨n, hwalk⟩
        exact (hwalk.of_branchFalse hbarrier hthread).imp fun _ hm => hm.2
      · rintro ⟨n, hwalk⟩
        exact ⟨n + 1, hwalk.branchFalse hbarrier hthread⟩

/-- **The phases** one after the other. -/
theorem run_phases (M : Machine ι σ) (h : Between count r) {phases : List (HullPhase ι)}
    (hvalid : ∀ p ∈ phases, p.body.Valid {} true) :
    ∃ r', r.run (phases.flatMap HullPhase.ops) = some r' ∧ Between count r' ∧
      r'.noControlPointPhasePassthrough =
        ((phases.any fun p => p.kind matches .controlPoint) ||
          r.noControlPointPhasePassthrough) ∧
      ∀ B, Final (fun _ => False) r' B → Final (fun _ => False) r B ∧ ∀ s t, Walk M B r s t ↔
        ∃ s', Shader.ExecPhases M count r.phase phases s s' ∧ Walk M B r' s' t := by
  induction phases generalizing r with
  | nil =>
    refine ⟨r, rfl, h, (Bool.false_or _).symm, fun B hB => ⟨hB, fun s t => ⟨fun hwalk => ?_, ?_⟩⟩⟩
    · exact ⟨s, .nil, hwalk⟩
    · rintro ⟨s', hexec, hwalk⟩
      cases hexec
      exact hwalk
  | cons p phases ih =>
    obtain ⟨hp, hphases⟩ := List.forall_mem_cons.mp hvalid
    obtain ⟨r₁, hrun₁, h₁, hphase, hflag₁, hwalk₁⟩ := run_phase M h hp
      (phases.flatMap HullPhase.ops)
    obtain ⟨r', hrun, h', hflag, hwalk⟩ := ih h₁ hphases
    refine ⟨r', hrun₁.trans hrun, h', ?_, fun B hB => ?_⟩
    · rw [hflag, hflag₁, List.any_cons, ← Bool.or_assoc]
      congr 1
      exact Bool.or_comm ..
    · obtain ⟨hB₁, hwalk⟩ := hwalk B hB
      obtain ⟨hB₀, hwalk₁⟩ := hwalk₁ B hB₁
      refine ⟨hB₀, fun s t => ?_⟩
      rw [hwalk₁]
      simp only [hwalk, hphase]
      cases hthread : M.test (.threadBelow (p.count count)) s with
      | true =>
        rw [if_pos rfl]
        constructor
        · rintro ⟨o, s₁, hbody, s', hexec, hw⟩
          exact ⟨s', .active hthread hbody hexec, hw⟩
        · rintro ⟨s', hexec, hw⟩
          cases hexec with
          | idle hthread' _ => exact absurd (hthread.symm.trans hthread') nofun
          | active _ hbody hexec => exact ⟨_, _, hbody, s', hexec, hw⟩
      | false =>
        rw [if_neg Bool.false_ne_true]
        constructor
        · rintro ⟨s', hexec, hw⟩
          exact ⟨s', .idle hthread hexec, hw⟩
        · rintro ⟨s', hexec, hw⟩
          cases hexec with
          | idle _ hexec => exact ⟨s', hexec, hw⟩
          | active hthread' _ _ => exact absurd (hthread'.symm.trans hthread) nofun

/-! ## The whole shader -/

theorem start_inv : Inv (fun _ => False) bbReturn (start : Reader ι) := by
  have hclosed : ∀ b blk, (start : Reader ι).allBb[b]? = some blk → b ≠ 0 →
      blk.target ≠ .undefined := by
    intro b blk hblk hb
    match b with
    | 0 => exact absurd rfl hb
    | 1 =>
      rw [← Option.some.inj hblk]
      exact nofun
  refine ⟨List.nodup_nil, nofun, nofun, ?_, nofun, nofun, nofun, rfl, ?_⟩
  · intro b hb
    obtain rfl := Option.some.inj hb
    exact ⟨Nat.zero_lt_two, nofun, id⟩
  · exact fun b blk hblk _ hne _ => hclosed b blk hblk fun hb => hne (congrArg some hb.symm)

theorem Inv.withCount (h : Inv X ret r) (count : BitVec 32) :
    Inv X ret { r with outputControlPointCount := count } :=
  ⟨h.nodup, h.lt, h.exempt, h.current, h.empty, h.isSwitch, h.inst, h.ret, h.closed⟩

theorem start_return {B : List (BasicBlock ι)} (hB : Final (fun _ => False) start B) :
    B[bbReturn]? = some { target := .return } :=
  hB.left bbReturn _ rfl nofun nofun id

section Last

variable {target : BasicBlockTarget ι}

theorem setTarget_getElem? (hb : r.current = some b) : (r.setTarget target).allBb[b]? =
    r.allBb[b]?.map fun blk => { blk with target } :=
  (getElem?_modify ..).trans (if_pos hb)

/-- The blocks are final when nothing is open and the current one has its target. -/
theorem setTarget_final (target : BasicBlockTarget ι) (hnil : r.opened = []) :
    Final X r (r.setTarget target).allBb := by
  refine ⟨fun b blk hblk _ hne _ => ((getElem?_modify ..).trans (if_neg hne)).trans hblk,
    fun b blk hblk hbegun => ?_⟩
  have hb : r.current = some b := hbegun.resolve_right fun hmem => by
    have hmem : b ∈ r.opened := List.mem_append_right _ hmem
    rw [hnil] at hmem
    exact nomatch hmem
  exact ⟨_, (setTarget_getElem? hb).trans (congrArg _ hblk), List.prefix_rfl⟩

theorem setTarget_defined (h : Inv (fun _ => False) ret r) (hnil : r.opened = [])
    (htarget : target ≠ .undefined) : ∀ blk ∈ (r.setTarget target).allBb,
      blk.target ≠ .undefined := by
  intro blk hmem
  obtain ⟨b, hblk⟩ := List.mem_iff_getElem?.mp hmem
  by_cases hb : r.current = some b
  · rw [setTarget_getElem? hb, Option.map_eq_some_iff] at hblk
    obtain ⟨blk', -, rfl⟩ := hblk
    exact htarget
  · refine h.closed b blk ?_ (by rw [hnil]; exact nofun) hb id
    rwa [setTarget, getElem?_modify, if_neg hb] at hblk

end Last

/-- A shader without phases. -/
theorem readControlFlow_single (M : Machine ι σ) {body : Body ι} (hvalid : body.Valid {} true)
    (outputControlPointRead : Bool) :
    ∃ blocks, readControlFlow false outputControlPointRead (body.ops ++ [.ret]) = some blocks ∧
      (∀ blk ∈ blocks, blk.target ≠ .undefined) ∧ ∀ s t, Runs M blocks s t ↔
        ∃ o, Exec M (translation (~~~0)) body s o t := by
  obtain ⟨r, T, hbuilt⟩ := run_body hvalid start_inv ⟨nofun, nofun, nofun, nofun, fun _ => rfl⟩
  obtain rfl := hbuilt.eq_nil (labels_of_valid hvalid rfl)
  have hendif : r.endif = [] := (congrArg Reader.endif hbuilt.frame :)
  have hbreak : r.breakTarget = [] := (congrArg Reader.breakTarget hbuilt.frame :)
  have hinv := hbuilt.moves.inv
  have hnil : r.opened = [] := (congrArg Reader.opened hbuilt.frame :)
  have hfinal : Final (fun _ => False) r (r.returned bbReturn).allBb :=
    setTarget_final (.unconditionalBranch bbReturn) hnil
  have hends : EndsAt ((r.returned bbReturn).allBb.map BasicBlock.node) r.place
      (.jump bbReturn) :=
    endsAt_place (.unconditionalBranch bbReturn) nofun fun b blk hb hblk =>
      (setTarget_getElem? hb).trans (congrArg _ hblk)
  refine ⟨(r.returned bbReturn).allBb, ?_, setTarget_defined hinv hnil nofun, fun s t => ?_⟩
  · rw [readControlFlow, run_append, hbuilt.run, Option.bind_some, run_cons,
      step_ret hinv.ret hendif hbreak]
    rfl
  · unfold Runs
    rw [hbuilt.halts hvalid hfinal (p := (0, 0)) rfl hends]
    simp only [halts_return (start_return (hbuilt.moves.final _ hfinal))]
    constructor
    · rintro ⟨o, s', hexec, rfl⟩
      exact ⟨o, hexec⟩
    · rintro ⟨o, hexec⟩
      exact ⟨o, t, hexec, rfl⟩

/-- The target of the block behind the phases. -/
def lastTarget (count : BitVec 32) (writes : Bool) : BasicBlockTarget ι :=
  if writes then .hullShaderWriteOutput count bbReturn else .unconditionalBranch bbReturn

theorem lastTarget_ne (count : BitVec 32) (writes : Bool) :
    (lastTarget count writes : BasicBlockTarget ι) ≠ .undefined := by
  cases writes <;> exact nofun

theorem finish_allBb (hcurrent : r.current ≠ some bbReturn) (outputControlPointRead : Bool) :
    (r.finish true outputControlPointRead).allBb = (r.setTarget (lastTarget
      r.outputControlPointCount
      (outputControlPointRead || !r.noControlPointPhasePassthrough))).allBb := by
  rw [finish, if_neg hcurrent, Bool.true_and, lastTarget]
  cases outputControlPointRead || !r.noControlPointPhasePassthrough <;> rfl

/-- The last block writes the control points, if they are to be written, and returns. -/
theorem halts_last {B : List (BasicBlock ι)} {writes : Bool} {blk : BasicBlock ι}
    (hreturn : B[bbReturn]? = some { target := .return })
    (hblk : B[b]? = some { blk with target := lastTarget count writes }) :
    (∃ n, Halts M (B.map BasicBlock.node) n (b, blk.instructions.length) s t) ↔
      t = if writes then M.instr (.writeControlPoint count) s else s := by
  cases writes with
  | true =>
    have hinstr := instrAt_of_getElem? hblk (k := blk.instructions.length)
      (show [.writeControlPoint count] <+: _ by
        rw [BasicBlock.effects, List.drop_left' (List.length_map ..)]; exact List.prefix_rfl)
    have hends := endsAt_of_getElem? hblk (k := blk.instructions.length + 1)
      (by rw [BasicBlock.effects, List.length_append, List.length_map]; exact le_rfl)
    rw [if_pos rfl, eq_comm, ← halts_return (M := M) hreturn]
    constructor
    · rintro ⟨n, hwalk⟩
      exact (((halts_instr hinstr).mp hwalk).of_jump hends).imp fun _ hm => hm.2
    · rintro ⟨n, hwalk⟩
      exact ⟨n + 1, (halts_instr hinstr).mpr (hwalk.jump hends)⟩
  | false =>
    have hends := endsAt_of_getElem? hblk (k := blk.instructions.length)
      (by rw [BasicBlock.effects, List.length_append, List.length_map]; exact le_rfl)
    rw [if_neg Bool.false_ne_true, eq_comm, ← halts_return (M := M) hreturn]
    constructor
    · rintro ⟨n, hwalk⟩
      exact (hwalk.of_jump hends).imp fun _ hm => hm.2
    · rintro ⟨n, hwalk⟩
      exact ⟨n + 1, hwalk.jump hends⟩

/-- A hull shader. -/
theorem readControlFlow_hull (M : Machine ι σ) (count : BitVec 32) {phases : List (HullPhase ι)}
    (hvalid : ∀ p ∈ phases, p.body.Valid {} true) (outputControlPointRead : Bool) :
    ∃ blocks, readControlFlow true outputControlPointRead
        (.dclOutputControlPointCount count :: phases.flatMap HullPhase.ops) = some blocks ∧
      (∀ blk ∈ blocks, blk.target ≠ .undefined) ∧ ∀ s t, Runs M blocks s t ↔
        ∃ s', Shader.ExecPhases M count (~~~0) phases s s' ∧
          t = if Shader.writesControlPoints outputControlPointRead phases then
            M.instr (.writeControlPoint count) s' else s' := by
  have hstart : Between count { (start : Reader ι) with outputControlPointCount := count } :=
    ⟨start_inv.withCount count, rfl, rfl, rfl, rfl, ⟨0, rfl, nofun⟩, rfl⟩
  obtain ⟨r, hrun, h, hflag, hwalk⟩ := run_phases M hstart hvalid
  obtain ⟨b, hb, hne⟩ := h.current
  have hcurrent : r.current ≠ some bbReturn := fun hc => hne (Option.some.inj (hb.symm.trans hc))
  have hwrites : (outputControlPointRead || !r.noControlPointPhasePassthrough) =
      Shader.writesControlPoints outputControlPointRead phases := by
    rw [hflag, Shader.writesControlPoints]
    exact congrArg (fun passthrough => outputControlPointRead || !passthrough) (Bool.or_false _)
  have hfinish := finish_allBb hcurrent outputControlPointRead
  rw [hwrites, h.count] at hfinish
  obtain ⟨hB, hwalk⟩ := hwalk _ (setTarget_final (lastTarget count
    (Shader.writesControlPoints outputControlPointRead phases)) h.opened)
  refine ⟨(r.setTarget (lastTarget count
    (Shader.writesControlPoints outputControlPointRead phases))).allBb, ?_,
      setTarget_defined h.inv h.opened (lastTarget_ne _ _), fun s t => ?_⟩
  · rw [readControlFlow, run_cons, step, Option.bind_some, hrun, Option.map_some, hfinish]
  · have hblk := List.getElem?_eq_getElem (h.inv.current b hb).1
    refine (walk_iff (r := { (start : Reader ι) with outputControlPointCount := count })
      (p := (0, 0)) rfl).symm.trans ((hwalk s t).trans (exists_congr fun s' =>
        and_congr_right fun _ => ?_))
    rw [walk_iff (place_eq_some.mpr ⟨hb, _, hblk, rfl⟩)]
    exact halts_last (start_return ⟨hB.left, hB.begun⟩)
      ((setTarget_getElem? hb).trans (congrArg _ hblk))

end Reader

/-- **The blocks of a shader** are all made, and the walk through them is what the shader does: it
ends if the shader does, and in the same state. -/
theorem readControlFlow_runs (M : Machine ι σ) (shader : Shader ι) (hvalid : shader.Valid)
    (outputControlPointRead : Bool) :
    ∃ blocks, readControlFlow shader.isHull outputControlPointRead shader.ops = some blocks ∧
      (∀ blk ∈ blocks, blk.target ≠ .undefined) ∧
      ∀ s t, Runs M blocks s t ↔ shader.Does M outputControlPointRead s t := by
  cases shader with
  | single body =>
    obtain ⟨blocks, hread, hdefined, hruns⟩ :=
      Reader.readControlFlow_single M hvalid outputControlPointRead
    refine ⟨blocks, hread, hdefined, fun s t => (hruns s t).trans ⟨?_, ?_⟩⟩
    · rintro ⟨o, hexec⟩
      exact .single hexec
    · rintro ⟨hexec⟩
      exact ⟨_, hexec⟩
  | hull count phases =>
    obtain ⟨blocks, hread, hdefined, hruns⟩ :=
      Reader.readControlFlow_hull M count hvalid outputControlPointRead
    refine ⟨blocks, hread, hdefined, fun s t => (hruns s t).trans ⟨?_, ?_⟩⟩
    · rintro ⟨s', hexec, rfl⟩
      exact .hull hexec
    · rintro ⟨⟩
      rename_i s' hexec
      exact ⟨s', hexec, rfl⟩

/-- A loop that is left under a condition, with a switch that falls through from its case. -/
def loopShader : Shader Nat :=
  .single (.loop (.exitIf 0 .brk (.switch 1 (.label (some 0) (.instr (.inst 2) (.label none
    (.exit .cont .nil)))) (.instr (.inst 3) .nil))) (.instrIf 4 .nil))

/-- Its operand 0 is whether the count has come to 3, and operand 1 is the count. -/
def countMachine : Machine Nat (BitVec 32) where
  instr _ count := count + 1
  test _ count := count == 3
  select _ count := count

theorem readControlFlow_runs_loopShader :
    ∃ blocks, readControlFlow false false loopShader.ops = some blocks ∧
      (∀ blk ∈ blocks, blk.target ≠ .undefined) ∧
      ∀ s t, Runs countMachine blocks s t ↔ loopShader.Does countMachine false s t :=
  readControlFlow_runs countMachine loopShader
    ⟨⟨.inr rfl, rfl, by decide, ⟨rfl, rfl, rfl, trivial⟩, trivial⟩, trivial⟩ false

end ControlFlow

end Dxmt
