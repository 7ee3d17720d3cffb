import Mathlib.Data.List.Basic
import Mathlib.Tactic.Cases

/-!
# Structured code in a graph of blocks

Structured code has branches, loops that are left by jumps, and switches that fall through. In a
graph, a block is a list of instructions with one target. `Layout` says where code stands in a
graph, and `halts_iff`: a walk through the graph from there does what the code does, also in that it
ends.
-/

namespace Dxmt

namespace Structured

universe u

/-- What instructions do to a state, and what conditions and selectors are in it. -/
structure Meaning (I C V K : Type) (σ : Type u) where
  instr : I → σ → σ
  test : C → σ → Bool
  select : V → σ → K

/-- Statements as instructions, with their conditions and selectors, and the instructions that are
guarded by a condition alone. -/
structure Translation (S C V I C' V' : Type) where
  instr : S → List I
  guarded : C → List I
  test : C → C'
  select : V → V'

variable {S I C V C' V' K : Type} {σ : Type u}

/-- The instructions in order. -/
def Meaning.run (M : Meaning I C V K σ) (instructions : List I) (s : σ) : σ :=
  instructions.foldl (fun s i => M.instr i s) s

theorem Meaning.run_append (M : Meaning I C V K σ) (a b : List I) (s : σ) :
    M.run (a ++ b) s = M.run b (M.run a s) :=
  List.foldl_append

/-! ## Code -/

/-- Where a statement jumps. -/
inductive Jump where
  | brk
  | cont
  | ret
deriving DecidableEq

variable (S C V K) in
/-- Statements one after the other. The body of a switch has its labels among its statements, `none`
for the default. -/
inductive Code where
  | nil
  | instr (i : S) (rest : Code)
  | instrIf (c : C) (rest : Code)
  | ite (c : C) (body rest : Code)
  | iteElse (c : C) (body alternative rest : Code)
  | loop (body rest : Code)
  | switch (v : V) (body rest : Code)
  | label (l : Option K) (rest : Code)
  | exit (j : Jump) (rest : Code)
  | exitIf (c : C) (j : Jump) (rest : Code)

namespace Code

/-- The code behind a label. -/
def find [DecidableEq K] (l : Option K) : Code S C V K → Option (Code S C V K)
  | nil => none
  | instr _ rest => rest.find l
  | instrIf _ rest => rest.find l
  | ite _ _ rest => rest.find l
  | iteElse _ _ _ rest => rest.find l
  | loop _ rest => rest.find l
  | switch _ _ rest => rest.find l
  | label l' rest => if l' = l then some rest else rest.find l
  | exit _ rest => rest.find l
  | exitIf _ _ rest => rest.find l

/-- The labels of a body, from its begin to its end. -/
def labels : Code S C V K → List (Option K)
  | nil => []
  | instr _ rest => rest.labels
  | instrIf _ rest => rest.labels
  | ite _ _ rest => rest.labels
  | iteElse _ _ _ rest => rest.labels
  | loop _ rest => rest.labels
  | switch _ _ rest => rest.labels
  | label l rest => l :: rest.labels
  | exit _ rest => rest.labels
  | exitIf _ _ rest => rest.labels

/-- Where a switch enters its body. -/
def entry [DecidableEq K] (body : Code S C V K) (k : K) : Code S C V K :=
  ((body.find (some k)).or (body.find none)).getD nil

end Code

/-- What code does: `none` at its end, or the jump that leaves it. -/
inductive Exec [DecidableEq K] (M : Meaning I C' V' K σ) (e : Translation S C V I C' V') :
    Code S C V K → σ → Option Jump → σ → Prop where
  | nil {s} : Exec M e .nil s none s
  | instr {i rest s o t} (h : Exec M e rest (M.run (e.instr i) s) o t) :
      Exec M e (.instr i rest) s o t
  | instrIf {c rest s o t}
      (h : Exec M e rest (if M.test (e.test c) s then M.run (e.guarded c) s else s) o t) :
      Exec M e (.instrIf c rest) s o t
  | iteSkip {c body rest s o t} (hc : M.test (e.test c) s = false) (h : Exec M e rest s o t) :
      Exec M e (.ite c body rest) s o t
  | iteDone {c body rest s s' o t} (hc : M.test (e.test c) s = true)
      (hbody : Exec M e body s none s') (h : Exec M e rest s' o t) :
      Exec M e (.ite c body rest) s o t
  | iteJump {c body rest s j t} (hc : M.test (e.test c) s = true)
      (hbody : Exec M e body s (some j) t) : Exec M e (.ite c body rest) s (some j) t
  | thenDone {c body other rest s s' o t} (hc : M.test (e.test c) s = true)
      (hbody : Exec M e body s none s') (h : Exec M e rest s' o t) :
      Exec M e (.iteElse c body other rest) s o t
  | thenJump {c body other rest s j t} (hc : M.test (e.test c) s = true)
      (hbody : Exec M e body s (some j) t) : Exec M e (.iteElse c body other rest) s (some j) t
  | elseDone {c body other rest s s' o t} (hc : M.test (e.test c) s = false)
      (hbody : Exec M e other s none s') (h : Exec M e rest s' o t) :
      Exec M e (.iteElse c body other rest) s o t
  | elseJump {c body other rest s j t} (hc : M.test (e.test c) s = false)
      (hbody : Exec M e other s (some j) t) : Exec M e (.iteElse c body other rest) s (some j) t
  | loopAgain {body rest s o s' o' t} (ho : o ≠ some .brk ∧ o ≠ some .ret)
      (hbody : Exec M e body s o s') (h : Exec M e (.loop body rest) s' o' t) :
      Exec M e (.loop body rest) s o' t
  | loopBreak {body rest s s' o t} (hbody : Exec M e body s (some .brk) s')
      (h : Exec M e rest s' o t) : Exec M e (.loop body rest) s o t
  | loopRet {body rest s t} (hbody : Exec M e body s (some .ret) t) :
      Exec M e (.loop body rest) s (some .ret) t
  | switchDone {v body rest s o s' o' t} (ho : o = none ∨ o = some .brk)
      (hbody : Exec M e (body.entry (M.select (e.select v) s)) s o s') (h : Exec M e rest s' o' t) :
      Exec M e (.switch v body rest) s o' t
  | switchJump {v body rest s j t} (hj : j ≠ .brk)
      (hbody : Exec M e (body.entry (M.select (e.select v) s)) s (some j) t) :
      Exec M e (.switch v body rest) s (some j) t
  | label {l rest s o t} (h : Exec M e rest s o t) : Exec M e (.label l rest) s o t
  | exit {j rest s} : Exec M e (.exit j rest) s (some j) s
  | exitJump {c j rest s} (hc : M.test (e.test c) s = true) :
      Exec M e (.exitIf c j rest) s (some j) s
  | exitSkip {c j rest s o t} (hc : M.test (e.test c) s = false) (h : Exec M e rest s o t) :
      Exec M e (.exitIf c j rest) s o t

/-! ## Graphs -/

variable (C V K) in
/-- How a block ends. -/
inductive Target where
  | jump (b : Nat)
  | branch (c : C) (b b' : Nat)
  | switch (v : V) (cases : List (K × Nat)) (otherwise : Nat)
  | stop
  | stuck

variable (I C V K) in
/-- A block: its instructions and its end. -/
structure CodeBlock where
  instructions : List I
  target : Target C V K

/-- The block behind a target. -/
def Target.next [DecidableEq K] (M : Meaning I C V K σ) (s : σ) : Target C V K → Option Nat
  | jump b => some b
  | branch c b b' => some (if M.test c s then b else b')
  | switch v cases otherwise => some ((cases.lookup (M.select v s)).getD otherwise)
  | stop => none
  | stuck => none

/-- A walk from a place in a block to the end of one that stops, with so many targets on it. -/
inductive Halts [DecidableEq K] (M : Meaning I C V K σ) (G : List (CodeBlock I C V K)) :
    Nat → Nat × Nat → σ → σ → Prop where
  | stop {b k s B} (hB : G[b]? = some B) (ht : B.target = .stop) :
      Halts M G 0 (b, k) s (M.run (B.instructions.drop k) s)
  | step {n b k s b' t B} (hB : G[b]? = some B)
      (ht : B.target.next M (M.run (B.instructions.drop k) s) = some b')
      (h : Halts M G n (b', 0) (M.run (B.instructions.drop k) s) t) :
      Halts M G (n + 1) (b, k) s t

/-! ## Where code stands in a graph -/

/-- The place behind some instructions. No place is one that is never reached. -/
def behind (p : Option (Nat × Nat)) (is : List I) : Option (Nat × Nat) :=
  p.map fun p => (p.1, p.2 + is.length)

/-- The instructions stand at a place. -/
def InstrAt (G : List (CodeBlock I C V K)) (p : Option (Nat × Nat)) (is : List I) : Prop :=
  ∀ b k, p = some (b, k) → ∃ B, G[b]? = some B ∧ is <+: B.instructions.drop k

/-- A place is at the end of a block with this target. -/
def EndsAt (G : List (CodeBlock I C V K)) (p : Option (Nat × Nat)) (target : Target C V K) : Prop :=
  ∀ b k, p = some (b, k) → ∃ B, G[b]? = some B ∧ B.instructions.length ≤ k ∧ B.target = target

/-- The exits with another break target. -/
def withBreak (x : Jump → Nat) (e : Nat) : Jump → Nat
  | .brk => e
  | j => x j

/-- Inside a loop the jumps go to its end and to its start. -/
def withLoop (x : Jump → Nat) (e l : Nat) : Jump → Nat
  | .brk => e
  | .cont => l
  | .ret => x .ret

/-- Code stands between two places of a graph, with its exits, and with its labels at these blocks.
-/
inductive Layout [DecidableEq K] (G : List (CodeBlock I C' V' K)) (e : Translation S C V I C' V') :
    (Jump → Nat) → Code S C V K → Option (Nat × Nat) → Option (Nat × Nat) →
      List (Option K × Nat) → Prop where
  | nil {x p} : Layout G e x .nil p p []
  | instr {x i rest p q T} (hi : InstrAt G p (e.instr i))
      (h : Layout G e x rest (behind p (e.instr i)) q T) : Layout G e x (.instr i rest) p q T
  | instrIf {x c rest p q T f z} (hp : EndsAt G p (.branch (e.test c) f z))
      (hf : InstrAt G (some (f, 0)) (e.guarded c))
      (hz : EndsAt G (behind (some (f, 0)) (e.guarded c)) (.jump z))
      (h : Layout G e x rest (some (z, 0)) q T) : Layout G e x (.instrIf c rest) p q T
  | ite {x c body rest p q T b z r} (hp : EndsAt G p (.branch (e.test c) b z))
      (hbody : Layout G e x body (some (b, 0)) r []) (hr : EndsAt G r (.jump z))
      (h : Layout G e x rest (some (z, 0)) q T) : Layout G e x (.ite c body rest) p q T
  | iteElse {x c body other rest p q T b b' z r r'} (hp : EndsAt G p (.branch (e.test c) b b'))
      (hbody : Layout G e x body (some (b, 0)) r []) (hr : EndsAt G r (.jump z))
      (hother : Layout G e x other (some (b', 0)) r' []) (hr' : EndsAt G r' (.jump z))
      (h : Layout G e x rest (some (z, 0)) q T) : Layout G e x (.iteElse c body other rest) p q T
  | loop {x body rest p q T l z r} (hp : EndsAt G p (.jump l))
      (hbody : Layout G e (withLoop x z l) body (some (l, 0)) r []) (hr : EndsAt G r (.jump l))
      (h : Layout G e x rest (some (z, 0)) q T) : Layout G e x (.loop body rest) p q T
  | switch {x v body rest p q T z r T' cases} (hcases : ∀ k, cases.lookup k = T'.lookup (some k))
      (hp : EndsAt G p (.switch (e.select v) cases ((T'.lookup none).getD z)))
      (hbody : Layout G e (withBreak x z) body none r T') (hr : EndsAt G r (.jump z))
      (h : Layout G e x rest (some (z, 0)) q T) : Layout G e x (.switch v body rest) p q T
  | label {x l rest p q T b} (hp : EndsAt G p (.jump b))
      (h : Layout G e x rest (some (b, 0)) q T) : Layout G e x (.label l rest) p q ((l, b) :: T)
  | exit {x j rest p q T} (hp : EndsAt G p (.jump (x j))) (h : Layout G e x rest none q T) :
      Layout G e x (.exit j rest) p q T
  | exitIf {x c j rest p q T z} (hp : EndsAt G p (.branch (e.test c) (x j) z))
      (h : Layout G e x rest (some (z, 0)) q T) : Layout G e x (.exitIf c j rest) p q T

theorem withBreak_of_ne (x : Jump → Nat) (e : Nat) {j : Jump} (h : j ≠ .brk) :
    withBreak x e j = x j := by
  cases j with
  | brk => exact absurd rfl h
  | cont => rfl
  | ret => rfl

/-! ## Walks -/

section Walks

variable [DecidableEq K] {M : Meaning I C' V' K σ} {G : List (CodeBlock I C' V' K)} {n z z' : Nat}
  {p : Nat × Nat} {s t : σ} {c : C'} {target : Target C' V' K}

/-- At the end of a block the walk goes on behind its target. -/
theorem halts_end (hp : EndsAt G (some p) target) (hnext : target.next M s = some z) :
    Halts M G n p s t ↔ ∃ m, n = m + 1 ∧ Halts M G m (z, 0) s t := by
  obtain ⟨b, k⟩ := p
  obtain ⟨B, hB, hlength, htarget⟩ := hp b k rfl
  have hdrop : B.instructions.drop k = [] := List.drop_eq_nil_of_le hlength
  have hrun : M.run (B.instructions.drop k) s = s := by rw [hdrop]; rfl
  constructor
  · intro h
    cases h with
    | stop hB' ht =>
      obtain rfl := Option.some.inj (hB.symm.trans hB')
      rw [ht] at htarget
      rw [← htarget] at hnext
      exact nomatch hnext
    | step hB' ht h =>
      obtain rfl := Option.some.inj (hB.symm.trans hB')
      rw [hrun] at ht h
      rw [htarget, hnext] at ht
      obtain rfl := Option.some.inj ht
      exact ⟨_, rfl, h⟩
  · rintro ⟨m, rfl, h⟩
    refine .step hB (by rw [hrun, htarget]; exact hnext) ?_
    rw [hrun]
    exact h

/-- Instructions that stand at a place are run. -/
theorem halts_instr {is : List I} (hp : InstrAt G (some p) is) :
    Halts M G n p s t ↔ Halts M G n (p.1, p.2 + is.length) (M.run is s) t := by
  obtain ⟨b, k⟩ := p
  obtain ⟨B, hB, rest, hrest⟩ := hp b k rfl
  have hdrop : B.instructions.drop (k + is.length) = rest := by
    rw [← List.drop_drop, ← hrest, List.drop_left]
  have hrun : M.run (B.instructions.drop k) s =
      M.run (B.instructions.drop (k + is.length)) (M.run is s) := by
    rw [hdrop, ← hrest, M.run_append]
  constructor
  · intro h
    cases h with
    | stop hB' ht =>
      obtain rfl := Option.some.inj (hB.symm.trans hB')
      rw [hrun]
      exact .stop hB ht
    | step hB' ht h =>
      obtain rfl := Option.some.inj (hB.symm.trans hB')
      rw [hrun] at ht h
      exact .step hB ht h
  · intro h
    cases h with
    | stop hB' ht =>
      obtain rfl := Option.some.inj (hB.symm.trans hB')
      rw [← hrun]
      exact .stop hB ht
    | step hB' ht h =>
      obtain rfl := Option.some.inj (hB.symm.trans hB')
      rw [← hrun] at ht h
      exact .step hB ht h

theorem Halts.jump (h : Halts M G n (z, 0) s t) (hp : EndsAt G (some p) (.jump z)) :
    Halts M G (n + 1) p s t :=
  (halts_end hp rfl).mpr ⟨n, rfl, h⟩

theorem Halts.branchTrue (h : Halts M G n (z, 0) s t) (hp : EndsAt G (some p) (.branch c z z'))
    (hc : M.test c s = true) : Halts M G (n + 1) p s t :=
  (halts_end hp (congrArg some (if_pos hc))).mpr ⟨n, rfl, h⟩

theorem Halts.branchFalse (h : Halts M G n (z', 0) s t) (hp : EndsAt G (some p) (.branch c z z'))
    (hc : M.test c s = false) : Halts M G (n + 1) p s t :=
  (halts_end hp (congrArg some (if_neg (by rw [hc]; decide)))).mpr ⟨n, rfl, h⟩

theorem Halts.of_jump (h : Halts M G n p s t) (hp : EndsAt G (some p) (.jump z)) :
    ∃ m, n = m + 1 ∧ Halts M G m (z, 0) s t :=
  (halts_end hp rfl).mp h

theorem Halts.of_branchTrue (h : Halts M G n p s t) (hp : EndsAt G (some p) (.branch c z z'))
    (hc : M.test c s = true) : ∃ m, n = m + 1 ∧ Halts M G m (z, 0) s t :=
  (halts_end hp (congrArg some (if_pos hc))).mp h

theorem Halts.of_branchFalse (h : Halts M G n p s t) (hp : EndsAt G (some p) (.branch c z z'))
    (hc : M.test c s = false) : ∃ m, n = m + 1 ∧ Halts M G m (z', 0) s t :=
  (halts_end hp (congrArg some (if_neg (by rw [hc]; decide)))).mp h

/-- A walk ends in one state. -/
theorem Halts.unique {n' : Nat} {t' : σ} (h : Halts M G n p s t)
    (h' : Halts M G n' p s t') : n = n' ∧ t = t' := by
  induction h generalizing n' with
  | stop hB ht =>
    cases h' with
    | stop hB' ht' =>
      obtain rfl := Option.some.inj (hB.symm.trans hB')
      exact ⟨rfl, rfl⟩
    | step hB' ht' h' =>
      obtain rfl := Option.some.inj (hB.symm.trans hB')
      rw [ht] at ht'
      exact nomatch ht'
  | step hB ht _ ih =>
    cases h' with
    | stop hB' ht' =>
      obtain rfl := Option.some.inj (hB.symm.trans hB')
      rw [ht'] at ht
      exact nomatch ht
    | step hB' ht' h' =>
      obtain rfl := Option.some.inj (hB.symm.trans hB')
      obtain rfl := Option.some.inj (ht.symm.trans ht')
      obtain ⟨rfl, rfl⟩ := ih h'
      exact ⟨rfl, rfl⟩

end Walks

/-! ## Walks through code -/

section Simulation

variable [DecidableEq K] {M : Meaning I C' V' K σ} {G : List (CodeBlock I C' V' K)}
  {e : Translation S C V I C' V'} {x : Jump → Nat} {code : Code S C V K}
  {p q : Option (Nat × Nat)} {T : List (Option K × Nat)} {s t : σ} {o : Option Jump} {n : Nat}

variable (M G) in
/-- A walk goes on where the code was left. -/
def Lands (n : Nat) (x : Jump → Nat) (q : Option (Nat × Nat)) : Option Jump → σ → σ → Prop
  | none, s, t => ∃ q', q = some q' ∧ Halts M G n q' s t
  | some j, s, t => Halts M G n (x j, 0) s t

/-- Code that comes to its end has a place there. -/
theorem Layout.live (h : Layout G e x code p q T) (hp : p.isSome) (hexec : Exec M e code s o t)
    (ho : o = none) : q.isSome := by
  induction hexec generalizing p T with
  | nil => cases h; exact hp
  | instr _ ih =>
    cases h with
    | instr _ h => exact ih h (by rw [behind, Option.isSome_map]; exact hp) ho
  | instrIf _ ih => cases h with | instrIf _ _ _ h => exact ih h rfl ho
  | iteSkip _ _ ih => cases h with | ite _ _ _ h => exact ih h rfl ho
  | iteDone _ _ _ _ ih => cases h with | ite _ _ _ h => exact ih h rfl ho
  | iteJump _ _ _ => cases ho
  | thenDone _ _ _ _ ih => cases h with | iteElse _ _ _ _ _ h => exact ih h rfl ho
  | thenJump _ _ _ => cases ho
  | elseDone _ _ _ _ ih => cases h with | iteElse _ _ _ _ _ h => exact ih h rfl ho
  | elseJump _ _ _ => cases ho
  | loopAgain _ _ _ _ ih => exact ih h hp ho
  | loopBreak _ _ _ ih => cases h with | loop _ _ _ h => exact ih h rfl ho
  | loopRet _ _ => cases ho
  | switchDone _ _ _ _ ih => cases h with | switch _ _ _ _ h => exact ih h rfl ho
  | switchJump _ _ _ => cases ho
  | label _ ih => cases h with | label _ h => exact ih h rfl ho
  | exit => cases ho
  | exitJump _ => cases ho
  | exitSkip _ _ ih => cases h with | exitIf _ h => exact ih h rfl ho

theorem Layout.labels (h : Layout G e x code p q T) : T.map Prod.fst = code.labels := by
  induction h with
  | nil => rfl
  | instr _ _ ih => exact ih
  | instrIf _ _ _ _ ih => exact ih
  | ite _ _ _ _ _ ih => exact ih
  | iteElse _ _ _ _ _ _ _ _ ih => exact ih
  | loop _ _ _ _ _ ih => exact ih
  | switch _ _ _ _ _ _ ih => exact ih
  | @label x l rest p q T b _ _ ih => exact congrArg (l :: ·) ih
  | exit _ _ ih => exact ih
  | exitIf _ _ ih => exact ih

/-- A label has its block in the table, and what is behind it stands there. -/
theorem Layout.find (h : Layout G e x code p q T) {l : Option K} :
    (∃ found b T', code.find l = some found ∧ T.lookup l = some b ∧
      Layout G e x found (some (b, 0)) q T') ∨ code.find l = none ∧ T.lookup l = none := by
  induction h with
  | nil => exact .inr ⟨rfl, rfl⟩
  | instr _ _ ih => exact ih
  | instrIf _ _ _ _ ih => exact ih
  | ite _ _ _ _ _ ih => exact ih
  | iteElse _ _ _ _ _ _ _ _ ih => exact ih
  | loop _ _ _ _ _ ih => exact ih
  | switch _ _ _ _ _ _ ih => exact ih
  | @label x l' rest p q T b _ h ih =>
    rw [Code.find, List.lookup_cons]
    by_cases hl : l' = l
    · rw [if_pos hl, hl, beq_self_eq_true]
      exact .inl ⟨rest, b, T, rfl, rfl, h⟩
    · have hbeq : (l == l') = false := beq_eq_false_iff_ne.mpr (Ne.symm hl)
      rw [if_neg hl, hbeq]
      exact ih
  | exit _ _ ih => exact ih
  | exitIf _ _ ih => exact ih

/-- A switch goes to where its body is entered, or behind it if there is no label. -/
theorem Layout.entry {body : Code S C V K} (h : Layout G e x body p q T) {cases : List (K × Nat)}
    (hcases : ∀ k, cases.lookup k = T.lookup (some k)) (k : K) (z : Nat) :
    (∃ T', Layout G e x (body.entry k)
        (some ((cases.lookup k).getD ((T.lookup none).getD z), 0)) q T') ∨
      body.entry k = .nil ∧ (cases.lookup k).getD ((T.lookup none).getD z) = z := by
  rw [hcases]
  unfold Code.entry
  obtain ⟨found, b, T', hfind, hlookup, hfound⟩ | ⟨hfind, hlookup⟩ := h.find (l := some k)
  · rw [hfind, hlookup]
    exact .inl ⟨T', hfound⟩
  · rw [hfind, hlookup]
    obtain ⟨found, b, T', hfind', hlookup', hfound⟩ | ⟨hfind', hlookup'⟩ := h.find (l := none)
    · rw [hfind', hlookup']
      exact .inl ⟨T', hfound⟩
    · rw [hfind', hlookup']
      exact .inr ⟨rfl, rfl⟩

/-- From the end of code that was left at its end, over a jump. -/
theorem Layout.lands_jump (h : Layout G e x code p q T) (hp : p.isSome)
    (hexec : Exec M e code s none t) {z : Nat} (hq : EndsAt G q (.jump z)) {u : σ}
    (hz : Halts M G n (z, 0) t u) : Lands M G (n + 1) x q none t u := by
  obtain ⟨q', rfl⟩ := Option.isSome_iff_exists.mp (h.live hp hexec rfl)
  exact ⟨q', rfl, hz.jump hq⟩

variable (M G e) in
/-- From wherever the code stands there is a walk that goes on where the code was left. -/
def Walks (code : Code S C V K) (s : σ) (o : Option Jump) (s' : σ) : Prop :=
  ∀ {x : Jump → Nat} {p : Nat × Nat} {q : Option (Nat × Nat)} {T : List (Option K × Nat)} {n : Nat}
    {t : σ}, Layout G e x code (some p) q T → Lands M G n x q o s' t → ∃ m, Halts M G m p s t

section Loops

variable {body rest : Code S C V K} {v : V} {s' u : σ} {o' : Option Jump}

/-- A turn of a loop that is followed by another one. -/
theorem Walks.loopAgain (ho : o ≠ some .brk ∧ o ≠ some .ret) (hexec : Exec M e body s o s')
    (hbody : Walks M G e body s o s') (hloop : Walks M G e (.loop body rest) s' o' u) :
    Walks M G e (.loop body rest) s o' u := by
  intro x p q T n t h hlands
  obtain ⟨m, hm⟩ := hloop h hlands
  cases h with
  | @loop _ _ _ _ _ _ l z r hp hlayout hr _ =>
    -- the rest of the loop is also a walk from where it is entered
    obtain ⟨m₁, rfl, hnext⟩ := (halts_end hp rfl).mp hm
    have hbegin : ∃ m', Halts M G m' (l, 0) s t := by
      cases o with
      | none => exact hbody hlayout (hlayout.lands_jump rfl hexec hr hnext)
      | some j =>
        cases j with
        | brk => exact absurd rfl ho.1
        | cont => exact hbody (n := m₁) hlayout hnext
        | ret => exact absurd rfl ho.2
    obtain ⟨m', hm'⟩ := hbegin
    exact ⟨m' + 1, hm'.jump hp⟩

/-- A switch whose body comes to its end or to a break. -/
theorem Walks.switchDone (ho : o = none ∨ o = some .brk)
    (hexec : Exec M e (body.entry (M.select (e.select v) s)) s o s')
    (hbody : Walks M G e (body.entry (M.select (e.select v) s)) s o s')
    (hrest : Walks M G e rest s' o' u) : Walks M G e (.switch v body rest) s o' u := by
  intro x p q T n t h hlands
  cases h with
  | @switch _ _ _ _ _ _ _ z r T' cases hcases hp hlayout hr h =>
    obtain ⟨m, hm⟩ := hrest h hlands
    have hbegin : ∃ m', Halts M G m'
        ((cases.lookup (M.select (e.select v) s)).getD ((T'.lookup none).getD z), 0) s t := by
      obtain ⟨T'', hentry⟩ | ⟨hnil, hexit⟩ := hlayout.entry hcases (M.select (e.select v) s) z
      · obtain rfl | rfl := ho
        · exact hbody hentry (hentry.lands_jump rfl hexec hr hm)
        · exact hbody (n := m) hentry hm
      · rw [hexit]
        have hempty : Exec M e .nil s o s' := hnil ▸ hexec
        cases hempty
        exact ⟨m, hm⟩
    obtain ⟨m', hm'⟩ := hbegin
    exact ⟨m' + 1, (halts_end hp rfl).mpr ⟨m', rfl, hm'⟩⟩

/-- A switch whose body leaves it by a jump to somewhere else. -/
theorem Walks.switchJump {j : Jump} (hj : j ≠ .brk)
    (hexec : Exec M e (body.entry (M.select (e.select v) s)) s (some j) u)
    (hbody : Walks M G e (body.entry (M.select (e.select v) s)) s (some j) u) :
    Walks M G e (.switch v body rest) s (some j) u := by
  intro x p q T n t h hlands
  cases h with
  | @switch _ _ _ _ _ _ _ z r T' cases hcases hp hlayout _ _ =>
    obtain ⟨T'', hentry⟩ | ⟨hnil, -⟩ := hlayout.entry hcases (M.select (e.select v) s) z
    · have hlands' : Lands M G n (withBreak x z) r (some j) u t := by
        change Halts M G n (withBreak x z j, 0) u t
        rw [withBreak_of_ne x z hj]
        exact hlands
      obtain ⟨m', hm'⟩ := hbody hentry hlands'
      exact ⟨m' + 1, (halts_end hp rfl).mpr ⟨m', rfl, hm'⟩⟩
    · have hempty : Exec M e .nil s (some j) u := hnil ▸ hexec
      cases hempty

end Loops

/-- The walk does what the code does. -/
theorem halts_of_exec {s' : σ} (hexec : Exec M e code s o s') {p : Nat × Nat}
    (h : Layout G e x code (some p) q T) (hlands : Lands M G n x q o s' t) :
    ∃ m, Halts M G m p s t := by
  induction hexec generalizing x p q T n t with
  | nil =>
    cases h
    obtain ⟨_, ⟨⟩, hlands⟩ := hlands
    exact ⟨n, hlands⟩
  | instr _ ih =>
    cases h with
    | instr hi h =>
      obtain ⟨m, hm⟩ := ih h hlands
      exact ⟨m, (halts_instr hi).mpr hm⟩
  | @instrIf c _ s _ _ _ ih =>
    cases h with
    | instrIf hp hf hz h =>
      obtain ⟨m, hm⟩ := ih h hlands
      cases hc : M.test (e.test c) s with
      | true =>
        rw [if_pos hc] at hm
        exact ⟨m + 2, ((halts_instr hf).mpr (hm.jump hz)).branchTrue hp hc⟩
      | false =>
        rw [hc, if_neg Bool.false_ne_true] at hm
        exact ⟨m + 1, hm.branchFalse hp hc⟩
  | iteSkip hc _ ih =>
    cases h with
    | ite hp _ _ h =>
      obtain ⟨m, hm⟩ := ih h hlands
      exact ⟨m + 1, hm.branchFalse hp hc⟩
  | iteDone hc hexec _ ihbody ih =>
    cases h with
    | ite hp hbody hr h =>
      obtain ⟨m, hm⟩ := ih h hlands
      obtain ⟨m', hm'⟩ := ihbody hbody (hbody.lands_jump rfl hexec hr hm)
      exact ⟨m' + 1, hm'.branchTrue hp hc⟩
  | iteJump hc _ ihbody =>
    cases h with
    | ite hp hbody _ _ =>
      obtain ⟨m, hm⟩ := ihbody hbody hlands
      exact ⟨m + 1, hm.branchTrue hp hc⟩
  | thenDone hc hexec _ ihbody ih =>
    cases h with
    | iteElse hp hbody hr _ _ h =>
      obtain ⟨m, hm⟩ := ih h hlands
      obtain ⟨m', hm'⟩ := ihbody hbody (hbody.lands_jump rfl hexec hr hm)
      exact ⟨m' + 1, hm'.branchTrue hp hc⟩
  | thenJump hc _ ihbody =>
    cases h with
    | iteElse hp hbody _ _ _ _ =>
      obtain ⟨m, hm⟩ := ihbody hbody hlands
      exact ⟨m + 1, hm.branchTrue hp hc⟩
  | elseDone hc hexec _ ihbody ih =>
    cases h with
    | iteElse hp _ _ hother hr h =>
      obtain ⟨m, hm⟩ := ih h hlands
      obtain ⟨m', hm'⟩ := ihbody hother (hother.lands_jump rfl hexec hr hm)
      exact ⟨m' + 1, hm'.branchFalse hp hc⟩
  | elseJump hc _ ihbody =>
    cases h with
    | iteElse hp _ _ hother _ _ =>
      obtain ⟨m, hm⟩ := ihbody hother hlands
      exact ⟨m + 1, hm.branchFalse hp hc⟩
  | loopAgain ho hexec _ ihbody ih =>
    exact Walks.loopAgain ho hexec (fun h hlands => ihbody h hlands)
      (fun h hlands => ih h hlands) h hlands
  | loopBreak _ _ ihbody ih =>
    cases h with
    | loop hp hbody _ h =>
      obtain ⟨m, hm⟩ := ih h hlands
      obtain ⟨m', hm'⟩ := ihbody (n := m) hbody hm
      exact ⟨m' + 1, hm'.jump hp⟩
  | loopRet _ ihbody =>
    cases h with
    | loop hp hbody _ _ =>
      obtain ⟨m', hm'⟩ := ihbody (n := n) hbody hlands
      exact ⟨m' + 1, hm'.jump hp⟩
  | switchDone ho hexec _ ihbody ih =>
    exact Walks.switchDone ho hexec (fun h hlands => ihbody h hlands)
      (fun h hlands => ih h hlands) h hlands
  | switchJump hj hexec ihbody =>
    exact Walks.switchJump hj hexec (fun h hlands => ihbody h hlands) h hlands
  | label _ ih =>
    cases h with
    | label hp h =>
      obtain ⟨m, hm⟩ := ih h hlands
      exact ⟨m + 1, hm.jump hp⟩
  | exit =>
    cases h with
    | exit hp _ => exact ⟨n + 1, Halts.jump hlands hp⟩
  | exitJump hc =>
    cases h with
    | exitIf hp _ => exact ⟨n + 1, Halts.branchTrue hlands hp hc⟩
  | exitSkip hc _ ih =>
    cases h with
    | exitIf hp h =>
      obtain ⟨m, hm⟩ := ih h hlands
      exact ⟨m + 1, hm.branchFalse hp hc⟩

variable (M G e) in
/-- The code is done and the walk goes on where it was left, with fewer targets ahead of it unless
the code came to its end. -/
def Follows (n : Nat) (x : Jump → Nat) (code : Code S C V K) (q : Option (Nat × Nat)) (s t : σ) :
    Prop :=
  ∃ o s' m, (m < n ∨ m = n ∧ o = none) ∧ Exec M e code s o s' ∧ Lands M G m x q o s' t

variable (M G e) in
/-- Walks with fewer targets do the code that stands where they begin. -/
def Shorter (n : Nat) (t : σ) : Prop :=
  ∀ m < n, ∀ {x : Jump → Nat} {code : Code S C V K} {p : Nat × Nat} {q : Option (Nat × Nat)}
    {T : List (Option K × Nat)} {s : σ}, Layout G e x code (some p) q T → Halts M G m p s t →
      Follows M G e m x code q s t

section Shorter

variable {c : C} {v : V} {j : Jump} {l : Option K} {body other rest : Code S C V K} {p : Nat × Nat}
  {r : Option (Nat × Nat)} {T' : List (Option K × Nat)} {z m : Nat}

/-- Code that begins with a target and then does what the rest does. -/
theorem Follows.succ {s₁ : σ} (h : Follows M G e m x rest q s₁ t)
    (hexec : ∀ {o : Option Jump} {s' : σ}, Exec M e rest s₁ o s' → Exec M e code s o s') :
    Follows M G e (m + 1) x code q s t := by
  obtain ⟨o, s', m', hm', hrest, hlands⟩ := h
  exact ⟨o, s', m', by omega, hexec hrest, hlands⟩

/-- A body with a jump to the rest at its end is left by a jump, or the rest is done as well. -/
theorem Shorter.seq (hn : Shorter M G e n t) (hbody : Layout G e x body (some p) r T')
    (hr : EndsAt G r (.jump z)) (h : Layout G e x rest (some (z, 0)) q T) (hm : m < n)
    (hwalk : Halts M G m p s t) :
    (∃ j s' m', m' < n ∧ Exec M e body s (some j) s' ∧ Lands M G m' x q (some j) s' t) ∨
      ∃ o s' u m', m' < n ∧ Exec M e body s none s' ∧ Exec M e rest s' o u ∧
        Lands M G m' x q o u t := by
  obtain ⟨o, s', m₁, hm₁, hexec, hlands⟩ := hn m hm hbody hwalk
  cases o with
  | some j => exact .inl ⟨j, s', m₁, by omega, hexec, hlands⟩
  | none =>
    obtain ⟨r', rfl, hend⟩ := hlands
    obtain ⟨m₂, rfl, hnext⟩ := hend.of_jump hr
    obtain ⟨o, u, m', hm', hexec', hlands⟩ := hn m₂ (by omega) h hnext
    exact .inr ⟨o, s', u, m', by omega, hexec, hexec', hlands⟩

theorem Shorter.instrIf (hn : Shorter M G e n t) (h : Layout G e x (.instrIf c rest) (some p) q T)
    (hwalk : Halts M G n p s t) : Follows M G e n x (.instrIf c rest) q s t := by
  cases h with
  | instrIf hp hf hz h =>
    cases hc : M.test (e.test c) s with
    | true =>
      obtain ⟨m₁, rfl, hnext⟩ := hwalk.of_branchTrue hp hc
      obtain ⟨m₂, rfl, hnext'⟩ := ((halts_instr hf).mp hnext).of_jump hz
      obtain ⟨o, s', m, hm, hexec, hlands⟩ := hn m₂ (by omega) h hnext'
      refine ⟨o, s', m, by omega, .instrIf ?_, hlands⟩
      rw [if_pos hc]
      exact hexec
    | false =>
      obtain ⟨m₁, rfl, hnext⟩ := hwalk.of_branchFalse hp hc
      refine (hn m₁ (Nat.lt_succ_self _) h hnext).succ fun hexec => .instrIf ?_
      rw [hc, if_neg Bool.false_ne_true]
      exact hexec

theorem Shorter.ite (hn : Shorter M G e n t) (h : Layout G e x (.ite c body rest) (some p) q T)
    (hwalk : Halts M G n p s t) : Follows M G e n x (.ite c body rest) q s t := by
  cases h with
  | ite hp hbody hr h =>
    cases hc : M.test (e.test c) s with
    | true =>
      obtain ⟨m₁, rfl, hnext⟩ := hwalk.of_branchTrue hp hc
      obtain ⟨j, s', m, hm, hexec, hlands⟩ | ⟨o, s', u, m, hm, hexec, hexec', hlands⟩ :=
        hn.seq hbody hr h (Nat.lt_succ_self _) hnext
      · exact ⟨some j, s', m, .inl hm, .iteJump hc hexec, hlands⟩
      · exact ⟨o, u, m, .inl hm, .iteDone hc hexec hexec', hlands⟩
    | false =>
      obtain ⟨m₁, rfl, hnext⟩ := hwalk.of_branchFalse hp hc
      exact (hn m₁ (Nat.lt_succ_self _) h hnext).succ (.iteSkip hc)

theorem Shorter.iteElse (hn : Shorter M G e n t)
    (h : Layout G e x (.iteElse c body other rest) (some p) q T) (hwalk : Halts M G n p s t) :
    Follows M G e n x (.iteElse c body other rest) q s t := by
  cases h with
  | iteElse hp hbody hr hother hr' h =>
    cases hc : M.test (e.test c) s with
    | true =>
      obtain ⟨m₁, rfl, hnext⟩ := hwalk.of_branchTrue hp hc
      obtain ⟨j, s', m, hm, hexec, hlands⟩ | ⟨o, s', u, m, hm, hexec, hexec', hlands⟩ :=
        hn.seq hbody hr h (Nat.lt_succ_self _) hnext
      · exact ⟨some j, s', m, .inl hm, .thenJump hc hexec, hlands⟩
      · exact ⟨o, u, m, .inl hm, .thenDone hc hexec hexec', hlands⟩
    | false =>
      obtain ⟨m₁, rfl, hnext⟩ := hwalk.of_branchFalse hp hc
      obtain ⟨j, s', m, hm, hexec, hlands⟩ | ⟨o, s', u, m, hm, hexec, hexec', hlands⟩ :=
        hn.seq hother hr' h (Nat.lt_succ_self _) hnext
      · exact ⟨some j, s', m, .inl hm, .elseJump hc hexec, hlands⟩
      · exact ⟨o, u, m, .inl hm, .elseDone hc hexec hexec', hlands⟩

theorem Shorter.loop (hn : Shorter M G e n t) (h : Layout G e x (.loop body rest) (some p) q T)
    (hwalk : Halts M G n p s t) : Follows M G e n x (.loop body rest) q s t := by
  have hloop := h
  cases h with
  | @loop _ _ _ _ _ _ l z r hp hbody hr h =>
    obtain ⟨m₁, rfl, hnext⟩ := (halts_end hp rfl).mp hwalk
    obtain ⟨o, s', m, hm, hexec, hlands⟩ := hn m₁ (by omega) hbody hnext
    -- the next turn is a shorter walk from the same place
    have hagain : ∀ m₂, m₂ < m₁ → o ≠ some .brk ∧ o ≠ some .ret →
        Halts M G m₂ (l, 0) s' t → Follows M G e (m₁ + 1) x (.loop body rest) q s t := by
      intro m₂ hm₂ ho hwalk
      obtain ⟨o', u, m, hm, hexec', hlands⟩ := hn (m₂ + 1) (by omega) hloop (hwalk.jump hp)
      exact ⟨o', u, m, by omega, .loopAgain ho hexec hexec', hlands⟩
    cases o with
    | none =>
      obtain ⟨r', rfl, hend⟩ := hlands
      obtain ⟨m₂, rfl, hnext'⟩ := hend.of_jump hr
      exact hagain m₂ (by omega) ⟨nofun, nofun⟩ hnext'
    | some j =>
      cases j with
      | brk =>
        obtain ⟨o, u, m', hm', hexec', hlands⟩ := hn m (by omega) h hlands
        exact ⟨o, u, m', by omega, .loopBreak hexec hexec', hlands⟩
      | cont => exact hagain m (hm.resolve_right nofun) ⟨nofun, nofun⟩ hlands
      | ret => exact ⟨some .ret, s', m, by omega, .loopRet hexec, hlands⟩

theorem Shorter.switch (hn : Shorter M G e n t)
    (h : Layout G e x (.switch v body rest) (some p) q T) (hwalk : Halts M G n p s t) :
    Follows M G e n x (.switch v body rest) q s t := by
  cases h with
  | @switch _ _ _ _ _ _ _ z r T' cases hcases hp hbody hr h =>
    obtain ⟨m₁, rfl, hnext⟩ := (halts_end hp rfl).mp hwalk
    obtain ⟨T'', hentry⟩ | ⟨hnil, hexit⟩ := hbody.entry hcases (M.select (e.select v) s) z
    · obtain ⟨o, s', m, hm, hexec, hlands⟩ := hn m₁ (by omega) hentry hnext
      cases o with
      | none =>
        obtain ⟨r', rfl, hend⟩ := hlands
        obtain ⟨m₂, rfl, hnext'⟩ := hend.of_jump hr
        obtain ⟨o, u, m, hm, hexec', hlands⟩ := hn m₂ (by omega) h hnext'
        exact ⟨o, u, m, by omega, .switchDone (.inl rfl) hexec hexec', hlands⟩
      | some j =>
        by_cases hj : j = .brk
        · subst hj
          obtain ⟨o, u, m', hm', hexec', hlands⟩ := hn m (by omega) h hlands
          exact ⟨o, u, m', by omega, .switchDone (.inr rfl) hexec hexec', hlands⟩
        · have hlands' : Halts M G m (withBreak x z j, 0) s' t := hlands
          rw [withBreak_of_ne x z hj] at hlands'
          exact ⟨some j, s', m, by omega, .switchJump hj hexec, hlands'⟩
    · rw [hexit] at hnext
      refine (hn m₁ (Nat.lt_succ_self _) h hnext).succ (.switchDone (.inl rfl) ?_)
      rw [hnil]
      exact .nil

theorem Shorter.exitIf (hn : Shorter M G e n t) (h : Layout G e x (.exitIf c j rest) (some p) q T)
    (hwalk : Halts M G n p s t) : Follows M G e n x (.exitIf c j rest) q s t := by
  cases h with
  | exitIf hp h =>
    cases hc : M.test (e.test c) s with
    | true =>
      obtain ⟨m₁, rfl, hnext⟩ := hwalk.of_branchTrue hp hc
      exact ⟨some j, s, m₁, by omega, .exitJump hc, hnext⟩
    | false =>
      obtain ⟨m₁, rfl, hnext⟩ := hwalk.of_branchFalse hp hc
      exact (hn m₁ (Nat.lt_succ_self _) h hnext).succ (.exitSkip hc)

end Shorter

/-- A walk that ends has done what the code does, and goes on where the code was left. The induction
is on the number of targets, for the loops, and then on the code. -/
theorem exec_of_halts {p : Nat × Nat} (h : Layout G e x code (some p) q T)
    (hwalk : Halts M G n p s t) : Follows M G e n x code q s t := by
  induction n using Nat.strongRecOn generalizing x code p q T s with
  | ind n ihn =>
    have hn : Shorter M G e n t := fun m hm => ihn m hm
    induction code generalizing x p q T s with
    | nil =>
      cases h
      exact ⟨none, s, n, .inr ⟨rfl, rfl⟩, .nil, p, rfl, hwalk⟩
    | instr i rest ih =>
      cases h with
      | instr hi h =>
        obtain ⟨o, s', m, hm, hexec, hlands⟩ := ih h ((halts_instr hi).mp hwalk)
        exact ⟨o, s', m, hm, .instr hexec, hlands⟩
    | instrIf c rest => exact hn.instrIf h hwalk
    | ite c body rest => exact hn.ite h hwalk
    | iteElse c body other rest => exact hn.iteElse h hwalk
    | loop body rest => exact hn.loop h hwalk
    | switch v body rest => exact hn.switch h hwalk
    | label l rest =>
      cases h with
      | label hp h =>
        obtain ⟨m₁, rfl, hnext⟩ := hwalk.of_jump hp
        exact (hn m₁ (Nat.lt_succ_self _) h hnext).succ .label
    | exit j rest =>
      cases h with
      | exit hp _ =>
        obtain ⟨m₁, rfl, hnext⟩ := (halts_end hp rfl).mp hwalk
        exact ⟨some j, s, m₁, by omega, .exit, hnext⟩
    | exitIf c j rest => exact hn.exitIf h hwalk

/-- **A walk from where code stands** ends as the code does and goes on where the code was left. -/
theorem halts_iff {p : Nat × Nat} (h : Layout G e x code (some p) q T) :
    (∃ n, Halts M G n p s t) ↔
      ∃ o s', Exec M e code s o s' ∧ ∃ n, Lands M G n x q o s' t := by
  constructor
  · rintro ⟨n, hwalk⟩
    obtain ⟨o, s', m, -, hexec, hlands⟩ := exec_of_halts h hwalk
    exact ⟨o, s', hexec, m, hlands⟩
  · rintro ⟨o, s', hexec, n, hlands⟩
    exact halts_of_exec hexec h hlands

end Simulation

end Structured

end Dxmt
