import Dxmt.StructuredCode
import Mathlib.Data.BitVec

/-!
# The blocks of a shader: `read_control_flow`

`read_control_flow` goes over the instructions of a shader once and builds its basic blocks. Blocks
are numbered as they are made; `none` stands for `bb_void`, which takes what can never run. What the
code does with a pointer that is not there, or that is not of the kind it is taken for, is `none`.

Source: `src/airconv/dxbc_converter_cfg.cpp:64-323, 596-680`.
-/

namespace Dxmt

namespace ControlFlow

open Structured

variable {ι : Type}

/-- What the control flow has to know of an instruction of the token stream. -/
inductive Op (ι : Type) where
  | if_ (inst : ι)
  | else_
  | endif
  | loop
  | endloop
  | break_
  | continue_
  | breakc (inst : ι)
  | continuec (inst : ι)
  | switch_ (inst : ι)
  | case_ (value : BitVec 32)
  | default_
  | endswitch
  | ret
  | retc (inst : ι)
  | discard (inst : ι)
  | hsControlPointPhase
  | hsForkPhase
  | hsJoinPhase
  | dclHsPhaseInstanceCount (count : BitVec 32)
  | dclOutputControlPointCount (count : BitVec 32)
  | emit
  | cut
  | emitThenCut
  | other (inst : ι)

/-- A pointer to a block; `none` is `&bb_void`. -/
abbrev BlockPtr := Option Nat

/-- `readInstruction` and `readSrcOperand` read the instruction in its phase. -/
inductive Instruction (ι : Type) where
  | read (phase : BitVec 32) (inst : ι)
  | emit
  | cut
  | pixelDiscard
  | sync

/-- `readCondition`. -/
structure BasicBlockCondition (ι : Type) where
  phase : BitVec 32
  inst : ι

/-- How a block ends. -/
inductive BasicBlockTarget (ι : Type) where
  | conditionalBranch (cond : BasicBlockCondition ι) (trueBranch falseBranch : Nat)
  | unconditionalBranch (target : Nat)
  | switch (value : BasicBlockCondition ι) (cases : List (BitVec 32 × Nat)) (caseDefault : Nat)
  | return
  | instanceBarrier (instanceCount : BitVec 32) (active sync : Nat)
  | hullShaderWriteOutput (instanceCount : BitVec 32) (epilogue : Nat)
  | undefined

/-- A block: its instructions and its end. -/
structure BasicBlock (ι : Type) where
  instructions : List (Instruction ι) := []
  target : BasicBlockTarget ι := .undefined

/-- The state of `readControlFlow`: the blocks so far and the one that is filled. -/
structure Reader (ι : Type) where
  allBb : List (BasicBlock ι)
  bbVoid : BasicBlock ι := {}
  current : BlockPtr
  phase : BitVec 32 := ~~~0
  endif : List Nat := []
  continueTarget : List Nat := []
  breakTarget : List Nat := []
  switchCtx : List BlockPtr := []
  instanceCtx : List BlockPtr := []
  outputControlPointCount : BitVec 32 := ~~~0
  noControlPointPhasePassthrough : Bool := false

/-- `returnbb`. -/
def bbReturn : Nat := 1

namespace Reader

variable (r : Reader ι)

/-- The block at a pointer. -/
def block : BlockPtr → Option (BasicBlock ι)
  | some b => r.allBb[b]?
  | none => some r.bbVoid

/-- Changes a block; instructions after a jump go to the void block. -/
def modify (p : BlockPtr) (f : BasicBlock ι → BasicBlock ι) : Reader ι :=
  { r with
    allBb := p.elim r.allBb fun b => r.allBb.modify b f
    bbVoid := p.elim (f r.bbVoid) fun _ => r.bbVoid }

/-- `fresh_bb`: the number of the new block is that of the blocks before. -/
def fresh (block : BasicBlock ι) : Reader ι := { r with allBb := r.allBb ++ [block] }

/-- Ends the current block. -/
def setTarget (target : BasicBlockTarget ι) : Reader ι :=
  r.modify r.current fun b => { b with target }

/-- Adds instructions to the current block. -/
def push (instructions : List (Instruction ι)) : Reader ι :=
  r.modify r.current fun b => { b with instructions := b.instructions ++ instructions }

/-- A condition, with the phase that it is read in. -/
def readCondition (inst : ι) : BasicBlockCondition ι := ⟨r.phase, inst⟩

/-- `std::map::insert`, which keeps what is there. -/
def insertCase (value : BitVec 32) (body : Nat) (cases : List (BitVec 32 × Nat)) :
    List (BitVec 32 × Nat) :=
  if (cases.lookup value).isSome then cases else cases ++ [(value, body)]

/-- What a case or a default does to the switch on top. -/
def setSwitch (f : List (BitVec 32 × Nat) → Nat → List (BitVec 32 × Nat) × Nat) :
    Option (Reader ι) :=
  r.switchCtx.head?.bind fun p =>
    (r.block p).bind fun b =>
      match b.target with
      | .switch value cases caseDefault =>
        some (r.modify p fun b =>
          { b with target := .switch value (f cases caseDefault).1 (f cases caseDefault).2 })
      | _ => none

/-- `ret_target`. -/
def retTarget : Option Nat :=
  match r.instanceCtx with
  | [] => some bbReturn
  | p :: _ =>
    (r.block p).bind fun b =>
      match b.target with
      | .instanceBarrier _ _ sync => some sync
      | _ => none

/-- The blocks of a phase of a hull shader. -/
def beginPhase (instanceCount : BitVec 32) : Reader ι :=
  let active := r.allBb.length
  { ((r.fresh {}).fresh { instructions := [.sync] }).setTarget
      (.instanceBarrier instanceCount active (active + 1)) with
    instanceCtx := r.current :: r.instanceCtx
    current := some active }

/-- One instruction. -/
def step : Op ι → Option (Reader ι)
  | .if_ inst =>
    let ifTrue := r.allBb.length
    some { ((r.fresh {}).fresh {}).setTarget
        (.conditionalBranch (r.readCondition inst) ifTrue (ifTrue + 1)) with
      endif := (ifTrue + 1) :: r.endif
      current := some ifTrue }
  | .else_ =>
    let endIf := r.allBb.length
    r.endif.head?.map fun alternative =>
      { (r.fresh {}).setTarget (.unconditionalBranch endIf) with
        endif := endIf :: r.endif.tail
        current := some alternative }
  | .endif =>
    r.endif.head?.map fun endIf =>
      { r.setTarget (.unconditionalBranch endIf) with
        endif := r.endif.tail
        current := some endIf }
  | .loop =>
    let loopEntrance := r.allBb.length
    some { ((r.fresh {}).fresh {}).setTarget (.unconditionalBranch loopEntrance) with
      continueTarget := loopEntrance :: r.continueTarget
      breakTarget := (loopEntrance + 1) :: r.breakTarget
      current := some loopEntrance }
  | .endloop =>
    r.continueTarget.head?.bind fun loopEntrance =>
      r.breakTarget.head?.map fun endLoop =>
        { r.setTarget (.unconditionalBranch loopEntrance) with
          continueTarget := r.continueTarget.tail
          breakTarget := r.breakTarget.tail
          current := some endLoop }
  | .break_ =>
    r.breakTarget.head?.map fun target =>
      { r.setTarget (.unconditionalBranch target) with current := none }
  | .continue_ =>
    r.continueTarget.head?.map fun target =>
      { r.setTarget (.unconditionalBranch target) with current := none }
  | .breakc inst =>
    let afterBreakc := r.allBb.length
    r.breakTarget.head?.map fun target =>
      { (r.fresh {}).setTarget (.conditionalBranch (r.readCondition inst) target afterBreakc) with
        current := some afterBreakc }
  | .continuec inst =>
    let afterContinuec := r.allBb.length
    r.continueTarget.head?.map fun target =>
      { (r.fresh {}).setTarget
          (.conditionalBranch (r.readCondition inst) target afterContinuec) with
        current := some afterContinuec }
  | .switch_ inst =>
    let endSwitch := r.allBb.length
    some { (r.fresh {}).setTarget (.switch (r.readCondition inst) [] endSwitch) with
      breakTarget := endSwitch :: r.breakTarget
      switchCtx := r.current :: r.switchCtx
      current := none }
  | .case_ value =>
    let caseBody := r.allBb.length
    ((r.fresh {}).setSwitch fun cases caseDefault =>
      (insertCase value caseBody cases, caseDefault)).map fun r =>
        { r.setTarget (.unconditionalBranch caseBody) with current := some caseBody }
  | .default_ =>
    let caseDefault := r.allBb.length
    ((r.fresh {}).setSwitch fun cases _ => (cases, caseDefault)).map fun r =>
      { r.setTarget (.unconditionalBranch caseDefault) with current := some caseDefault }
  | .endswitch =>
    r.breakTarget.head?.bind fun endSwitch =>
      r.switchCtx.head?.map fun _ =>
        { r.setTarget (.unconditionalBranch endSwitch) with
          breakTarget := r.breakTarget.tail
          switchCtx := r.switchCtx.tail
          current := some endSwitch }
  | .ret =>
    r.retTarget.map fun target =>
      if r.breakTarget.isEmpty && r.endif.isEmpty then
        { r.setTarget (.unconditionalBranch target) with
          current := some target
          instanceCtx := r.instanceCtx.tail }
      else { r.setTarget (.unconditionalBranch target) with current := none }
  | .retc inst =>
    let afterRetc := r.allBb.length
    r.retTarget.map fun target =>
      { (r.fresh {}).setTarget (.conditionalBranch (r.readCondition inst) target afterRetc) with
        current := some afterRetc }
  | .discard inst =>
    let fulfilled := r.allBb.length
    some { ((r.fresh
        { instructions := [.pixelDiscard], target := .unconditionalBranch (fulfilled + 1) }).fresh
          {}).setTarget (.conditionalBranch (r.readCondition inst) fulfilled (fulfilled + 1)) with
      current := some (fulfilled + 1) }
  | .hsControlPointPhase =>
    some { r.beginPhase r.outputControlPointCount with noControlPointPhasePassthrough := true }
  | .hsForkPhase => some ({ r with phase := r.phase + 1 }.beginPhase 1)
  | .hsJoinPhase => some ({ r with phase := r.phase + 1 }.beginPhase 1)
  | .dclHsPhaseInstanceCount count =>
    r.instanceCtx.head?.bind fun p =>
      (r.block p).bind fun b =>
        match b.target with
        | .instanceBarrier _ active sync =>
          some (r.modify p fun b => { b with target := .instanceBarrier count active sync })
        | _ => none
  | .dclOutputControlPointCount count => some { r with outputControlPointCount := count }
  | .emit => some (r.push [.emit])
  | .cut => some (r.push [.cut])
  | .emitThenCut => some (r.push [.emit, .cut])
  | .other inst => some (r.push [.read r.phase inst])

/-- What follows the last instruction. -/
def finish (hull outputControlPointRead : Bool) : Reader ι :=
  if r.current = some bbReturn then r
  else if hull && (outputControlPointRead || !r.noControlPointPhasePassthrough) then
    { r.setTarget (.hullShaderWriteOutput r.outputControlPointCount bbReturn) with
      current := some bbReturn }
  else { r.setTarget (.unconditionalBranch bbReturn) with current := some bbReturn }

/-- `entrybb` and `returnbb`. -/
def start : Reader ι where
  allBb := [{}, { target := .return }]
  current := some 0

/-- Reads operations one after the other. -/
def run (ops : List (Op ι)) : Option (Reader ι) := ops.foldlM step r

end Reader

/-- `read_control_flow` of a shader without functions. -/
def readControlFlow (hull outputControlPointRead : Bool) (ops : List (Op ι)) :
    Option (List (BasicBlock ι)) :=
  (Reader.start.run ops).map fun r => (r.finish hull outputControlPointRead).allBb

/-! ## What the blocks mean -/

/-- What `convert_basicblocks` emits for an instruction, and for the end of a hull shader. -/
inductive Effect (ι : Type) where
  | instruction (i : Instruction ι)
  | writeControlPoint (instanceCount : BitVec 32)

/-- What it branches on: an operand, or `thread_id_in_patch` below a count. -/
inductive BranchCondition (ι : Type) where
  | test (cond : BasicBlockCondition ι)
  | threadBelow (instanceCount : BitVec 32)

/-- What the instructions and conditions do to a state. -/
abbrev Machine (ι : Type) (σ : Type) :=
  Meaning (Effect ι) (BranchCondition ι) (BasicBlockCondition ι) (BitVec 32) σ

namespace BasicBlock

/-- The block with what the end of a hull shader writes. -/
def effects (b : BasicBlock ι) : List (Effect ι) :=
  b.instructions.map .instruction ++
    match b.target with
    | .hullShaderWriteOutput instanceCount _ => [.writeControlPoint instanceCount]
    | _ => []

/-- A block as `convert_basicblocks` reads it. -/
def node (b : BasicBlock ι) :
    CodeBlock (Effect ι) (BranchCondition ι) (BasicBlockCondition ι) (BitVec 32) where
  instructions := b.effects
  target :=
    match b.target with
    | .conditionalBranch cond trueBranch falseBranch =>
      .branch (.test cond) trueBranch falseBranch
    | .unconditionalBranch target => .jump target
    | .switch value cases caseDefault => .switch value cases caseDefault
    | .return => .stop
    | .instanceBarrier instanceCount active sync => .branch (.threadBelow instanceCount) active sync
    | .hullShaderWriteOutput _ epilogue => .jump epilogue
    | .undefined => .stuck

end BasicBlock

/-- A walk through the blocks from the first one ends. -/
def Runs {σ : Type} (M : Machine ι σ) (blocks : List (BasicBlock ι)) (s t : σ) : Prop :=
  ∃ n, Halts M (blocks.map BasicBlock.node) n (0, 0) s t

/-! ## Shaders -/

/-- An instruction without control flow. -/
inductive Statement (ι : Type) where
  | inst (inst : ι)
  | emit
  | cut
  | emitThenCut

/-- The statements of a shader or of a phase. DISCARD is an instruction under a condition. -/
abbrev Body (ι : Type) := Code (Statement ι) ι ι (BitVec 32)

/-- The operation of a statement without a body. -/
def Statement.op : Statement ι → Op ι
  | inst i => .other i
  | emit => .emit
  | cut => .cut
  | emitThenCut => .emitThenCut

/-- The instructions of a body as they stand in the token stream. -/
def Body.ops : Body ι → List (Op ι)
  | .nil => []
  | .instr i rest => i.op :: ops rest
  | .instrIf c rest => .discard c :: ops rest
  | .ite c body rest => .if_ c :: (ops body ++ .endif :: ops rest)
  | .iteElse c body alternative rest =>
    .if_ c :: (ops body ++ .else_ :: (ops alternative ++ .endif :: ops rest))
  | .loop body rest => .loop :: (ops body ++ .endloop :: ops rest)
  | .switch v body rest => .switch_ v :: (ops body ++ .endswitch :: ops rest)
  | .label (some value) rest => .case_ value :: ops rest
  | .label none rest => .default_ :: ops rest
  | .exit .brk rest => .break_ :: ops rest
  | .exit .cont rest => .continue_ :: ops rest
  | .exit .ret rest => .ret :: ops rest
  | .exitIf c .brk rest => .breakc c :: ops rest
  | .exitIf c .cont rest => .continuec c :: ops rest
  | .exitIf c .ret rest => .retc c :: ops rest

/-- Where statements may stand. -/
structure Place where
  breakable : Bool := false
  continuable : Bool := false
  nested : Bool := false
  labels : Bool := false

/-- The jump is allowed here. -/
def Place.allows (place : Place) : Jump → Bool
  | .brk => place.breakable
  | .cont => place.continuable
  | .ret => place.nested

/-- Well-nested statements. `live` is false behind a jump, up to the next block; a switch does not
stand there. -/
def Body.Valid : Place → Bool → Body ι → Prop
  | _, _, .nil => True
  | place, live, .instr _ rest => Valid place live rest
  | place, _, .instrIf _ rest => Valid place true rest
  | place, _, .ite _ body rest =>
    Valid { place with nested := true, labels := false } true body ∧ Valid place true rest
  | place, _, .iteElse _ body alternative rest =>
    Valid { place with nested := true, labels := false } true body ∧
      Valid { place with nested := true, labels := false } true alternative ∧ Valid place true rest
  | place, _, .loop body rest =>
    Valid { breakable := true, continuable := true, nested := true } true body ∧
      Valid place true rest
  | place, live, .switch _ body rest =>
    live = true ∧ body.labels.Nodup ∧
      Valid { place with breakable := true, nested := true, labels := true } false body ∧
        Valid place true rest
  | place, _, .label _ rest => place.labels = true ∧ Valid place true rest
  | place, _, .exit j rest => place.allows j = true ∧ Valid place false rest
  | place, _, .exitIf _ j rest => (j = .ret ∨ place.allows j = true) ∧ Valid place true rest

/-- What is read of a body in a phase. -/
def translation (phase : BitVec 32) :
    Translation (Statement ι) ι ι (Effect ι) (BranchCondition ι) (BasicBlockCondition ι) where
  instr
    | .inst i => [.instruction (.read phase i)]
    | .emit => [.instruction .emit]
    | .cut => [.instruction .cut]
    | .emitThenCut => [.instruction .emit, .instruction .cut]
  guarded _ := [.instruction .pixelDiscard]
  test c := .test ⟨phase, c⟩
  select v := ⟨phase, v⟩

/-- The phases of a hull shader. -/
inductive PhaseKind where
  | controlPoint
  | fork
  | join

/-- A phase of a hull shader, with the instance count of a fork or join phase if it is declared. -/
structure HullPhase (ι : Type) where
  kind : PhaseKind
  instanceCount : Option (BitVec 32)
  body : Body ι

namespace HullPhase

variable (p : HullPhase ι)

/-- The operations of a phase. -/
def ops : List (Op ι) :=
  (match p.kind with
    | .controlPoint => .hsControlPointPhase
    | .fork => .hsForkPhase
    | .join => .hsJoinPhase) ::
    ((p.instanceCount.map Op.dclHsPhaseInstanceCount).toList ++ (p.body.ops ++ [.ret]))

/-- The instances of the phase. -/
def count (outputControlPointCount : BitVec 32) : BitVec 32 :=
  p.instanceCount.getD
    (match p.kind with
      | .controlPoint => outputControlPointCount
      | _ => 1)

/-- The number of the phase behind this one. -/
def next (phase : BitVec 32) : BitVec 32 :=
  match p.kind with
  | .controlPoint => phase
  | _ => phase + 1

end HullPhase

/-- A shader without functions: one body that returns, or the phases of a hull shader. -/
inductive Shader (ι : Type) where
  | single (body : Body ι)
  | hull (outputControlPointCount : BitVec 32) (phases : List (HullPhase ι))

namespace Shader

/-- The operations of a shader. -/
def ops : Shader ι → List (Op ι)
  | single body => body.ops ++ [.ret]
  | hull outputControlPointCount phases =>
    .dclOutputControlPointCount outputControlPointCount :: phases.flatMap HullPhase.ops

/-- The shader is a hull shader. -/
def isHull : Shader ι → Bool
  | single _ => false
  | hull _ _ => true

/-- Every jump of the shader is allowed where it stands. -/
def Valid : Shader ι → Prop
  | single body => body.Valid {} true
  | hull _ phases => ∀ p ∈ phases, p.body.Valid {} true

/-- What the phases do one after the other, each in the threads below its count. -/
inductive ExecPhases {σ : Type} (M : Machine ι σ) (count : BitVec 32) :
    BitVec 32 → List (HullPhase ι) → σ → σ → Prop where
  | nil {phase s} : ExecPhases M count phase [] s s
  | idle {phase p phases s t} (hthread : M.test (.threadBelow (p.count count)) s = false)
      (h : ExecPhases M count (p.next phase) phases (M.instr (.instruction .sync) s) t) :
      ExecPhases M count phase (p :: phases) s t
  | active {phase p phases s o s' t} (hthread : M.test (.threadBelow (p.count count)) s = true)
      (hbody : Exec M (translation (p.next phase)) p.body s o s')
      (h : ExecPhases M count (p.next phase) phases (M.instr (.instruction .sync) s') t) :
      ExecPhases M count phase (p :: phases) s t

/-- The control points are written behind the phases, if a phase reads them or none makes them. -/
def writesControlPoints (outputControlPointRead : Bool) (phases : List (HullPhase ι)) : Bool :=
  outputControlPointRead || !phases.any fun p => p.kind matches .controlPoint

/-- What a shader does, as its statements say. -/
inductive Does {σ : Type} (M : Machine ι σ) (outputControlPointRead : Bool) :
    Shader ι → σ → σ → Prop where
  | single {body s o t} (h : Exec M (translation (~~~0)) body s o t) :
      Does M outputControlPointRead (single body) s t
  | hull {count phases s s'} (h : ExecPhases M count (~~~0) phases s s') :
      Does M outputControlPointRead (hull count phases) s
        (if writesControlPoints outputControlPointRead phases then
          M.instr (.writeControlPoint count) s' else s')

end Shader

end ControlFlow

end Dxmt
