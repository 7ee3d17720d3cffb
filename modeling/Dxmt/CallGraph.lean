import Mathlib.Data.List.Nodup
import Mathlib.Data.List.Perm.Basic
import Dxmt.WhileLoop

/-!
# The call graph of a module: `BuildLlvmCallGraph`

`BuildLlvmCallGraph` collects the calls of a module and then searches them: once from the entry
functions, and once from every function for a way back to it. Both searches keep a stack of names,
and functions are looked up by their names.

Headlines:
* **`callGraph_exact`**: for distinct names both searches end, what they mark is what chains and
  cycles of direct calls reach, and the unused dx.op functions are those no call edge has as its
  target. Calls are by name: a function without one is called by none, and the search starts at no
  such function.
* **`unnamed_not_reachable`**: a module whose first function has no name, and one whose first
  defined function is a dx.op function.

The stack of a search is a list with the top at its head.

Source: `DXILParser.cpp:1228-1347`.
-/

namespace Dxmt

namespace CallGraph

open WhileLoop GraphSearch

/-- `starts_with("dx.op.")`. -/
def isDxName (name : String) : Bool :=
  "dx.op.".toList.isPrefixOf name.toList

/-- What the call graph reads of an instruction, as `ParseLlvmInstruction` sets it. -/
structure LlvmInstructionInfo where
  isCall : Bool
  isIndirectCall : Bool
  calledFunction : String
  isDxIntrinsicCall : Bool
  dx : isCall = true → isDxIntrinsicCall = isDxName calledFunction

/-- A function of the module. -/
structure LlvmFunctionInfo where
  name : String
  isDeclaration : Bool
  isDxIntrinsic : Bool
  isEntryReachable : Bool := false
  isRecursive : Bool := false
  hasIndirectCalls : Bool := false
  calledFunctions : List String := []
  instructions : List LlvmInstructionInfo
  dx : isDxIntrinsic = isDxName name

/-- One call. -/
structure LlvmCallGraphEdgeInfo where
  caller : String
  callee : String
  instructionIndex : Nat
  isIndirect : Bool
  isDxIntrinsic : Bool

/-- What the analysis finds. -/
structure LlvmCallGraphInfo where
  edges : List LlvmCallGraphEdgeInfo := []
  entryReachableFunctions : List String := []
  recursiveFunctions : List String := []
  unusedDxIntrinsicDeclarations : List String := []
  hasIndirectCalls : Bool := false
  hasRecursion : Bool := false

/-- A module; an entry point is the name of its function. -/
structure LlvmModuleInfo where
  entryPoints : List String
  functions : List LlvmFunctionInfo
  callGraph : LlvmCallGraphInfo := {}

/-- `FindLlvmFunctionInfo`. -/
def findLlvmFunctionInfo (functions : List LlvmFunctionInfo) (name : String) :
    Option LlvmFunctionInfo :=
  if name = "" then none else functions.find? fun info => info.name = name

/-! ## The calls -/

/-- The edges of the calls of a function. -/
def callEdges (function : LlvmFunctionInfo) : List LlvmCallGraphEdgeInfo :=
  function.instructions.zipIdx.filterMap fun (instruction, i) =>
    if instruction.isCall then
      some {
        caller := function.name
        callee := instruction.calledFunction
        instructionIndex := i
        isIndirect := instruction.isIndirectCall
        isDxIntrinsic := instruction.isDxIntrinsicCall }
    else none

/-- What the first loop makes of a function of the module. -/
def collectFunction (functions : List LlvmFunctionInfo) (function : LlvmFunctionInfo) :
    LlvmFunctionInfo :=
  { function with
    isEntryReachable := false
    isRecursive := false
    hasIndirectCalls := (callEdges function).any (·.isIndirect)
    calledFunctions := (callEdges function).filterMap fun edge =>
      if !edge.isIndirect && !edge.isDxIntrinsic &&
        (findLlvmFunctionInfo functions edge.callee).isSome then
        some edge.callee
      else none }

/-- The edges of the module; every function lists whom it calls. -/
def collectCalls (m : LlvmModuleInfo) : LlvmModuleInfo :=
  let edges := m.functions.flatMap callEdges
  { m with
    functions := m.functions.map (collectFunction m.functions)
    callGraph := { edges, hasIndirectCalls := edges.any (·.isIndirect) } }

/-! ## The search from the entry functions -/

/-- The function is defined here. -/
def LlvmFunctionInfo.hasBody (function : LlvmFunctionInfo) : Bool :=
  !function.isDeclaration

/-- The function may be an entry: defined and no intrinsic. -/
def isEntryCandidate (function : LlvmFunctionInfo) : Bool :=
  !function.isDeclaration && !function.isDxIntrinsic

/-- The names the search starts with, the last of the vector first. -/
def initialWorklist (m : LlvmModuleInfo) : List String :=
  match m.entryPoints.filter fun functionName => functionName ≠ "" with
  | [] => (m.functions.find? isEntryCandidate).toList.map (·.name)
  | names => names.reverse

/-- The locals of the search from the entry. -/
structure EntrySearch where
  worklist : List String
  reachable : List String
  functions : List LlvmFunctionInfo

/-- `function->is_entry_reachable = true`, for the function of this name that is found. -/
def setEntryReachable : List LlvmFunctionInfo → String → List LlvmFunctionInfo
  | [], _ => []
  | function :: functions, name =>
    if function.name = name then { function with isEntryReachable := true } :: functions
    else function :: setEntryReachable functions name

/-- A function that is found first is marked, and those it calls go on the worklist. -/
def EntrySearch.visit (s : EntrySearch) (function : LlvmFunctionInfo) : EntrySearch where
  worklist := function.calledFunctions.foldl (fun stack callee => callee :: stack) s.worklist
  reachable := s.reachable ++ [function.name]
  functions := setEntryReachable s.functions function.name

/-- One turn of the loop. -/
def entryStep (s : EntrySearch) : Option EntrySearch :=
  match s.worklist with
  | [] => none
  | name :: worklist =>
    if name ∈ s.reachable then some { s with worklist }
    else
      match findLlvmFunctionInfo s.functions name with
      | none => some { s with worklist }
      | some function =>
        if function.isDeclaration then some { s with worklist }
        else some ({ s with worklist }.visit function)

/-- What is found is a function of the name. -/
theorem find_spec {functions : List LlvmFunctionInfo} {name : String} {function : LlvmFunctionInfo}
    (h : findLlvmFunctionInfo functions name = some function) :
    name ≠ "" ∧ function ∈ functions ∧ function.name = name := by
  unfold findLlvmFunctionInfo at h
  split at h
  · cases h
  · next hname =>
    have hfound := List.find?_some h
    exact ⟨hname, List.mem_of_find?_eq_some h, by simpa using hfound⟩

theorem names_setEntryReachable (functions : List LlvmFunctionInfo) (name : String) :
    (setEntryReachable functions name).map (·.name) = functions.map (·.name) := by
  induction functions with
  | nil => rfl
  | cons function functions ih =>
    unfold setEntryReachable
    split
    · rfl
    · rw [List.map_cons, List.map_cons, ih]

/-- What ends the search: the names not yet reached, then the names on the stack. -/
def EntrySearch.measure (s : EntrySearch) : Nat × Nat :=
  (unseen (s.functions.map (·.name)) s.reachable, s.worklist.length)

/-- Every turn of the search comes closer to its end. -/
theorem entryStep_lower (s s' : EntrySearch) (h : entryStep s = some s') :
    Lower EntrySearch.measure s' s := by
  obtain ⟨worklist, reachable, functions⟩ := s
  cases worklist with
  | nil => cases h
  | cons name worklist =>
    have hdrop : Lower EntrySearch.measure ⟨worklist, reachable, functions⟩
        ⟨name :: worklist, reachable, functions⟩ := lower_of_le (Nat.le_refl _) (Nat.lt_succ_self _)
    simp only [entryStep] at h
    split at h
    · cases h
      exact hdrop
    · next hnew =>
      split at h
      · cases h
        exact hdrop
      · next function hfind =>
        split at h
        · cases h
          exact hdrop
        · cases h
          obtain ⟨-, hmem, rfl⟩ := find_spec hfind
          refine lower_of_lt ?_
          simp only [EntrySearch.measure, EntrySearch.visit, names_setEntryReachable]
          exact unseen_lt (List.subset_append_left _ _) (List.mem_map_of_mem hmem) hnew
            (List.mem_append_right _ (List.mem_singleton_self _))

/-- The search from the entry, to its end. -/
def markEntryReachable (m : LlvmModuleInfo) : LlvmModuleInfo :=
  let s := run (lower_wf _) entryStep_lower ⟨initialWorklist m, [], m.functions⟩
  { m with
    functions := s.functions
    callGraph := { m.callGraph with entryReachableFunctions := s.reachable } }

/-! ## The search for a way back -/

/-- The locals of the search for a cycle. -/
structure CycleSearch where
  stack : List String
  visited : List String := []
  recursive : Bool := false

/-- The loop over the functions that the current one calls; `none` where it is left for `name`
itself. -/
def visitCallees (name : String) (stack visited : List String) :
    List String → Option (List String × List String)
  | [] => some (stack, visited)
  | callee :: callees =>
    if callee = name then none
    else if callee ∈ visited then visitCallees name stack visited callees
    else visitCallees name (callee :: stack) (visited ++ [callee]) callees

/-- One turn of the search for a cycle. -/
def cycleStep (functions : List LlvmFunctionInfo) (name : String) (s : CycleSearch) :
    Option CycleSearch :=
  match s.stack with
  | [] => none
  | current :: stack =>
    match findLlvmFunctionInfo functions current with
    | none => some { s with stack }
    | some currentFunction =>
      match visitCallees name stack s.visited currentFunction.calledFunctions with
      | none => some { s with stack := [], recursive := true }
      | some (stack, visited) => some { s with stack, visited }

/-- The loop over the callees: it is left for `name`, or the callees that are new are put on the
stack. -/
theorem visitCallees_spec {name : String} {stack visited callees : List String} :
    (visitCallees name stack visited callees = none ↔ name ∈ callees) ∧
    ∀ stack' visited', visitCallees name stack visited callees = some (stack', visited') →
      ∃ new, stack' = new.reverse ++ stack ∧ visited' = visited ++ new ∧
        (∀ x ∈ new, x ∈ callees ∧ x ∉ visited) ∧ ∀ x ∈ callees, x ≠ name ∧ x ∈ visited ++ new := by
  induction callees generalizing stack visited with
  | nil =>
    refine ⟨⟨nofun, nofun⟩, fun stack' visited' h => ?_⟩
    cases h
    exact ⟨[], rfl, (List.append_nil _).symm, nofun, nofun⟩
  | cons callee callees ih =>
    unfold visitCallees
    by_cases hname : callee = name
    · rw [if_pos hname]
      exact ⟨⟨fun _ => hname ▸ List.mem_cons_self, fun _ => rfl⟩, nofun⟩
    · have hmem : name ∈ callee :: callees ↔ name ∈ callees :=
        ⟨fun h => (List.mem_cons.mp h).resolve_left (Ne.symm hname), List.mem_cons_of_mem _⟩
      rw [if_neg hname, hmem]
      by_cases hvisited : callee ∈ visited
      · rw [if_pos hvisited]
        refine ⟨ih.1, fun stack' visited' h => ?_⟩
        obtain ⟨new, hstack, hvis, hnew, hall⟩ := ih.2 stack' visited' h
        refine ⟨new, hstack, hvis, fun x hx => ⟨List.mem_cons_of_mem _ (hnew x hx).1,
            (hnew x hx).2⟩, ?_⟩
        intro x hx
        rcases List.mem_cons.mp hx with rfl | hx
        · exact ⟨hname, List.mem_append_left _ hvisited⟩
        · exact hall x hx
      · rw [if_neg hvisited]
        refine ⟨ih.1, fun stack' visited' h => ?_⟩
        obtain ⟨new, hstack, hvis, hnew, hall⟩ := ih.2 stack' visited' h
        refine ⟨callee :: new, by rw [hstack, List.reverse_cons, List.append_assoc]; rfl,
          by rw [hvis, List.append_assoc]; rfl, ?_, ?_⟩
        · intro x hx
          rcases List.mem_cons.mp hx with rfl | hx
          · exact ⟨List.mem_cons_self, hvisited⟩
          · exact ⟨List.mem_cons_of_mem _ (hnew x hx).1,
              fun hmem => (hnew x hx).2 (List.mem_append_left _ hmem)⟩
        · intro x hx
          rcases List.mem_cons.mp hx with rfl | hx
          · exact ⟨hname, List.mem_append_right _ List.mem_cons_self⟩
          · refine ⟨(hall x hx).1, ?_⟩
            have hx' := (hall x hx).2
            rwa [List.append_assoc] at hx'

/-- What ends the search: the callees not yet visited, then the names on the stack. -/
def CycleSearch.measure (functions : List LlvmFunctionInfo) (s : CycleSearch) : Nat × Nat :=
  (unseen (functions.flatMap (·.calledFunctions)) s.visited, s.stack.length)

/-- Every turn of the search comes closer to its end. -/
theorem cycleStep_lower (functions : List LlvmFunctionInfo) (name : String) (s s' : CycleSearch)
    (h : cycleStep functions name s = some s') : Lower (CycleSearch.measure functions) s' s := by
  obtain ⟨stack, visited, recursive⟩ := s
  cases stack with
  | nil => cases h
  | cons current stack =>
    simp only [cycleStep] at h
    split at h
    · cases h
      exact lower_of_le (Nat.le_refl _) (Nat.lt_succ_self _)
    · next function hfind =>
      split at h
      · cases h
        exact lower_of_le (Nat.le_refl _) (Nat.succ_pos _)
      · next stack' visited' hvisit =>
        cases h
        obtain ⟨new, rfl, rfl, hnew, -⟩ := visitCallees_spec.2 _ _ hvisit
        cases new with
        | nil => exact lower_of_le (unseen_le (List.subset_append_left _ _)) (Nat.lt_succ_self _)
        | cons x new =>
          obtain ⟨hcallee, hx⟩ := hnew x List.mem_cons_self
          refine lower_of_lt (unseen_lt (List.subset_append_left _ _) ?_ hx
            (List.mem_append_right _ List.mem_cons_self))
          exact List.mem_flatMap.mpr ⟨function, (find_spec hfind).2.1, hcallee⟩

/-- Whether the search from a function comes back to it. -/
def callsItself (functions : List LlvmFunctionInfo) (function : LlvmFunctionInfo) : Bool :=
  (run (lower_wf _) (cycleStep_lower functions function.name) { stack :=
    [function.name] }).recursive

/-- What the loop over the functions records of one. -/
def recordRecursion (functions : List LlvmFunctionInfo) (graph : LlvmCallGraphInfo)
    (function : LlvmFunctionInfo) : LlvmCallGraphInfo :=
  if !function.isDeclaration && callsItself functions function then
    { graph with
      hasRecursion := true
      recursiveFunctions :=
        if function.name ∈ graph.recursiveFunctions then graph.recursiveFunctions
        else graph.recursiveFunctions ++ [function.name] }
  else graph

/-- Every defined function is searched for a cycle. -/
def markRecursive (m : LlvmModuleInfo) : LlvmModuleInfo :=
  { m with
    functions := m.functions.map fun function =>
      if !function.isDeclaration && callsItself m.functions function then
        { function with isRecursive := true }
      else function
    callGraph := m.functions.foldl (recordRecursion m.functions) m.callGraph }

/-! ## The whole -/

/-- The dx.op functions without an edge to them. -/
def listUnused (m : LlvmModuleInfo) : LlvmModuleInfo :=
  let used (function : LlvmFunctionInfo) : Bool :=
    m.callGraph.edges.any fun edge => edge.isDxIntrinsic && edge.callee = function.name
  { m with
    callGraph := { m.callGraph with
      unusedDxIntrinsicDeclarations :=
        (m.functions.filter fun function => function.isDxIntrinsic && !used function).map
        (·.name) } }

/-- `BuildLlvmCallGraph`. -/
def buildLlvmCallGraph (m : LlvmModuleInfo) : LlvmModuleInfo :=
  listUnused (markRecursive (markEntryReachable (collectCalls m)))

/-! ## Calls by name -/

/-- A function of the name is found, and it has a body. -/
def Open (functions : List LlvmFunctionInfo) (name : String) : Prop :=
  ∃ function, findLlvmFunctionInfo functions name = some function ∧ function.isDeclaration = false

/-- A function of the name `caller` is found, and `callee` is one of those it calls. -/
def Calls (functions : List LlvmFunctionInfo) (caller callee : String) : Prop :=
  ∃ function, findLlvmFunctionInfo functions caller = some function ∧
    callee ∈ function.calledFunctions

/-- A function that keeps the names and what they call is looked up the same way. -/
theorem find_map (f : LlvmFunctionInfo → LlvmFunctionInfo)
    (hf : ∀ function, (f function).name = function.name) (functions : List LlvmFunctionInfo)
    (name : String) :
    findLlvmFunctionInfo (functions.map f) name = (findLlvmFunctionInfo functions name).map f := by
  unfold findLlvmFunctionInfo
  split
  · rfl
  · rw [List.find?_map]
    congr 2
    funext function
    simp [hf]

/-- With one function of each name, the function of a name is found. -/
theorem find_iff {functions : List LlvmFunctionInfo} (hnodup : (functions.map (·.name)).Nodup)
    {name : String} {function : LlvmFunctionInfo} :
    findLlvmFunctionInfo functions name = some function ↔
      name ≠ "" ∧ function ∈ functions ∧ function.name = name := by
  refine ⟨find_spec, fun ⟨hname, hmem, heq⟩ => ?_⟩
  have hsome : (findLlvmFunctionInfo functions name).isSome := by
    unfold findLlvmFunctionInfo
    rw [if_neg hname, List.find?_isSome]
    exact ⟨function, hmem, by simpa using heq⟩
  obtain ⟨found, hfound⟩ := Option.isSome_iff_exists.mp hsome
  obtain ⟨-, hmem', heq'⟩ := find_spec hfound
  rw [hfound, List.inj_on_of_nodup_map hnodup hmem' hmem (heq'.trans heq.symm)]

/-! ## What the search from the entry functions reaches -/

/-- A chain of calls through functions with a body, from one of the names the search starts with. -/
def Chain (functions : List LlvmFunctionInfo) (roots : List String) (name : String) : Prop :=
  ∃ start ∈ roots, Relation.ReflTransGen (fun x y => Open functions x ∧
    Calls functions x y) start name

/-- The function with the mark it has when `reachable` are marked. -/
def marked (reachable : List String) (function : LlvmFunctionInfo) : LlvmFunctionInfo :=
  { function with isEntryReachable := decide (function.name ∈ reachable) }

/-- The name is on the worklist, it is marked, or there is nothing to mark. -/
def Handled (functions : List LlvmFunctionInfo) (s : EntrySearch) (name : String) : Prop :=
  name ∈ s.worklist ∨ name ∈ s.reachable ∨ ¬Open functions name

/-- The invariant of the search in the functions `functions`. -/
structure EntryInv (functions : List LlvmFunctionInfo) (roots : List String) (s : EntrySearch) :
    Prop where
  marks : s.functions = functions.map (marked s.reachable)
  pending : ∀ name ∈ s.worklist, Chain functions roots name
  sound : ∀ name ∈ s.reachable, Chain functions roots name ∧ Open functions name
  started : ∀ name ∈ roots, Handled functions s name
  followed : ∀ caller ∈ s.reachable, ∀ callee, Calls functions caller callee →
  Handled functions s callee

/-- Marking a function marks the functions of its name. -/
theorem setEntryReachable_marked {functions : List LlvmFunctionInfo}
    (hnodup : (functions.map (·.name)).Nodup) (reachable : List String) (name : String) :
    setEntryReachable (functions.map (marked reachable)) name =
      functions.map (marked (reachable ++ [name])) := by
  have hname : ∀ functions : List LlvmFunctionInfo,
      (functions.map (marked reachable)).map (·.name) = functions.map
      (·.name) := fun functions => by
    rw [List.map_map]
    rfl
  induction functions with
  | nil => rfl
  | cons function functions ih =>
    rw [List.map_cons, List.nodup_cons] at hnodup
    rw [List.map_cons, List.map_cons, setEntryReachable]
    have hsame : ∀ other : LlvmFunctionInfo, other.name ≠ name →
        marked (reachable ++ [name]) other = marked reachable other := fun other hne => by
      simp [marked, hne]
    by_cases hfunction : function.name = name
    · subst hfunction
      rw [if_pos (show (marked reachable function).name = function.name from rfl)]
      have hrest : functions.map (marked (reachable ++ [function.name])) =
          functions.map (marked reachable) :=
        List.map_congr_left fun other hother =>
          hsame other fun heq => hnodup.1 (heq ▸ List.mem_map_of_mem hother)
      rw [hrest]
      simp [marked]
    · rw [if_neg (show (marked reachable function).name ≠ name from hfunction), ih hnodup.2,
        hsame function hfunction]

theorem Handled.drop {functions : List LlvmFunctionInfo} {worklist reachable : List String}
    {marks : List LlvmFunctionInfo} {name x : String}
    (hdone : name ∈ reachable ∨ ¬Open functions name)
    (h : Handled functions ⟨name :: worklist, reachable, marks⟩ x) :
    Handled functions ⟨worklist, reachable, marks⟩ x := by
  rcases h with h | h | h
  · rcases List.mem_cons.mp h with rfl | h
    · exact .inr hdone
    · exact .inl h
  · exact .inr (.inl h)
  · exact .inr (.inr h)

/-- Names that are marked already, or have nothing to mark, may be dropped. -/
theorem EntryInv.drop {functions : List LlvmFunctionInfo} {roots worklist reachable : List String}
    {marks : List LlvmFunctionInfo} {name : String}
    (h : EntryInv functions roots ⟨name :: worklist, reachable, marks⟩)
    (hdone : name ∈ reachable ∨ ¬Open functions name) :
    EntryInv functions roots ⟨worklist, reachable, marks⟩ where
  marks := h.marks
  pending x hx := h.pending x (List.mem_cons_of_mem _ hx)
  sound := h.sound
  started x hx := (h.started x hx).drop hdone
  followed x hx y hcalls := (h.followed x hx y hcalls).drop hdone

theorem foldl_push (callees worklist : List String) :
    callees.foldl (fun stack callee => callee :: stack) worklist = callees.reverse ++ worklist := by
  induction callees generalizing worklist with
  | nil => rfl
  | cons callee callees ih => rw [List.foldl_cons, ih, List.reverse_cons, List.append_assoc]; rfl

/-- Visiting the function on top of the stack handles it and leaves what was handled. -/
theorem Handled.visit {functions marks : List LlvmFunctionInfo} {worklist reachable : List String}
    {function : LlvmFunctionInfo} {x : String}
    (h : Handled functions ⟨function.name :: worklist, reachable, marks⟩ x) :
    Handled functions (EntrySearch.visit ⟨worklist, reachable, marks⟩ function) x := by
  rcases h with h | h | h
  · rcases List.mem_cons.mp h with rfl | h
    · exact .inr (.inl (List.mem_append_right _ (List.mem_singleton_self _)))
    · refine .inl ?_
      simp only [EntrySearch.visit, foldl_push]
      exact List.mem_append_right _ h
  · exact .inr (.inl (List.mem_append_left _ h))
  · exact .inr (.inr h)

theorem EntryInv.visit {functions : List LlvmFunctionInfo} (hnodup : (functions.map (·.name)).Nodup)
    {roots worklist reachable : List String} {marks : List LlvmFunctionInfo}
    {function : LlvmFunctionInfo}
    (h : EntryInv functions roots ⟨function.name :: worklist, reachable, marks⟩)
    (hfind : findLlvmFunctionInfo functions function.name = some function)
    (hbody : function.isDeclaration = false) :
    EntryInv functions roots (EntrySearch.visit ⟨worklist, reachable, marks⟩ function) := by
  obtain rfl : marks = functions.map (marked reachable) := h.marks
  have hopen : Open functions function.name := ⟨function, hfind, hbody⟩
  have hchain := h.pending _ List.mem_cons_self
  refine ⟨setEntryReachable_marked hnodup reachable function.name, fun x hx => ?_, fun x hx => ?_,
    fun x hx => (h.started x hx).visit, fun x hx y hcalls => ?_⟩
  · simp only [EntrySearch.visit, foldl_push] at hx
    rcases List.mem_append.mp hx with hx | hx
    · obtain ⟨start, hstart, hpath⟩ := hchain
      exact ⟨start, hstart, hpath.tail ⟨hopen, function, hfind, List.mem_reverse.mp hx⟩⟩
    · exact h.pending x (List.mem_cons_of_mem _ hx)
  · rcases List.mem_append.mp hx with hx | hx
    · exact h.sound x hx
    · rw [List.mem_singleton.mp hx]
      exact ⟨hchain, hopen⟩
  · rcases List.mem_append.mp hx with hx | hx
    · exact (h.followed x hx y hcalls).visit
    · rw [List.mem_singleton.mp hx] at hcalls
      obtain ⟨caller, hcaller, hcallee⟩ := hcalls
      cases hfind.symm.trans hcaller
      refine .inl ?_
      simp only [EntrySearch.visit, foldl_push]
      exact List.mem_append_left _ (List.mem_reverse.mpr hcallee)

/-- A turn of the search keeps the invariant. -/
theorem EntryInv.step {functions : List LlvmFunctionInfo} (hnodup : (functions.map (·.name)).Nodup)
    {roots : List String} (s s' : EntrySearch) (h : EntryInv functions roots s)
    (hs : entryStep s = some s') :
    EntryInv functions roots s' := by
  obtain ⟨worklist, reachable, marks⟩ := s
  cases worklist with
  | nil => cases hs
  | cons name worklist =>
    simp only [entryStep] at hs
    have hmarks : marks = functions.map (marked reachable) := h.marks
    have hlookup : findLlvmFunctionInfo marks name =
        (findLlvmFunctionInfo functions name).map (marked reachable) :=
      hmarks ▸ find_map (marked reachable) (fun _ => rfl) _ _
    rw [hlookup] at hs
    split at hs
    · next hmem =>
      cases hs
      exact h.drop (.inl hmem)
    · cases hfind : findLlvmFunctionInfo functions name with
      | none =>
        rw [hfind] at hs
        cases hs
        refine h.drop (.inr fun ⟨function, hfunction, _⟩ => ?_)
        exact absurd (hfind.symm.trans hfunction) nofun
      | some function =>
        rw [hfind] at hs
        simp only [Option.map_some] at hs
        split at hs
        · next hdeclaration =>
          cases hs
          refine h.drop (.inr fun ⟨other, hother, hbody⟩ => ?_)
          cases hfind.symm.trans hother
          exact absurd (hdeclaration.symm.trans hbody) nofun
        · next hbody =>
          cases hs
          obtain ⟨-, -, rfl⟩ := find_spec hfind
          exact h.visit hnodup hfind (Bool.eq_false_iff.mpr hbody)

/-- The search ends with nothing left to visit. -/
theorem worklist_of_entryStep {s : EntrySearch} (h : entryStep s = none) : s.worklist = [] := by
  obtain ⟨worklist, reachable, functions⟩ := s
  cases worklist with
  | nil => rfl
  | cons name worklist =>
    simp only [entryStep] at h
    split at h
    · cases h
    · split at h
      · cases h
      · split at h <;> cases h

/-- **The search from the entry functions** marks what a chain reaches, and nothing else. -/
theorem entrySearch_spec {functions : List LlvmFunctionInfo}
    (hnodup : (functions.map (·.name)).Nodup)
    (hclear : ∀ function ∈ functions, function.isEntryReachable = false) (roots : List String) :
    ∃ reachable, (run (lower_wf _) entryStep_lower ⟨roots, [], functions⟩).functions =
        functions.map (marked reachable) ∧
      ∀ name, name ∈ reachable ↔ Chain functions roots name ∧ Open functions name := by
  have hstart : EntryInv functions roots ⟨roots, [], functions⟩ := by
    refine ⟨?_, fun name hname => ⟨name, hname, .refl⟩, nofun, fun name hname => .inl hname, nofun⟩
    refine (List.map_id functions).symm.trans (List.map_congr_left fun function hfunction => ?_)
    simp [marked, ← hclear function hfunction]
  obtain ⟨hinv, hdone⟩ := run_spec (lower_wf _) entryStep_lower (EntryInv.step hnodup) hstart
  refine ⟨_, hinv.marks, fun name => ⟨hinv.sound name, fun ⟨⟨start, hroot, hpath⟩, hopen⟩ => ?_⟩⟩
  have hempty : (run (lower_wf _) entryStep_lower ⟨roots, [], functions⟩).worklist = [] := by
    exact worklist_of_entryStep hdone
  have hhandled : ∀ x, Handled functions (run (lower_wf _) entryStep_lower ⟨roots, [],
      functions⟩) x →
      Open functions x → x ∈ (run (lower_wf _) entryStep_lower ⟨roots, [],
      functions⟩).reachable := by
    intro x hx hopen
    rcases hx with hx | hx | hx
    · rw [hempty] at hx
      cases hx
    · exact hx
    · exact absurd hopen hx
  refine mem_of_closed (S := fun x => Open functions x →
    _) (hhandled start (hinv.started start hroot))
    (fun x y hx hedge hy => ?_) hpath hopen
  exact hhandled y (hinv.followed x (hx hedge.1) y hedge.2) hy

/-! ## What the search for a way back finds -/

/-- The invariant of the search from `start`. -/
structure CycleInv (functions : List LlvmFunctionInfo) (start : String) (s : CycleSearch) :
    Prop where
  stacked : ∀ name ∈ s.stack, Relation.ReflTransGen (Calls functions) start name
  found : s.recursive = true → Relation.TransGen (Calls functions) start start
  /-- Until a way back is found, what was left from has only callees that are visited. -/
  left : s.recursive = false → ∀ name, name = start ∨ name ∈ s.visited → name ∈ s.stack ∨
    ∀ callee, Calls functions name callee → callee ≠ start ∧ callee ∈ s.visited

/-- A turn of the search keeps the invariant. -/
theorem CycleInv.step {functions : List LlvmFunctionInfo} {start : String} (s s' : CycleSearch)
    (h : CycleInv functions start s) (hs : cycleStep functions start s = some s') :
    CycleInv functions start s' := by
  obtain ⟨stack, visited, recursive⟩ := s
  cases stack with
  | nil => cases hs
  | cons current stack =>
    simp only [cycleStep] at hs
    have hcurrent := h.stacked _ List.mem_cons_self
    split at hs
    · next hfind =>
      cases hs
      refine ⟨fun x hx => h.stacked x (List.mem_cons_of_mem _ hx), h.found, fun hnot x hx => ?_⟩
      rcases h.left hnot x hx with hmem | hleft
      · rcases List.mem_cons.mp hmem with rfl | hmem
        · exact .inr fun callee ⟨function, hfunction, _⟩ =>
            absurd (hfind.symm.trans hfunction) nofun
        · exact .inl hmem
      · exact .inr hleft
    · next function hfind =>
      split at hs
      · next hvisit =>
        cases hs
        have hback : Calls functions current start :=
          ⟨function, hfind, visitCallees_spec.1.mp hvisit⟩
        exact ⟨nofun, fun _ => Relation.TransGen.tail' hcurrent hback, nofun⟩
      · next stack' visited' hvisit =>
        cases hs
        obtain ⟨new, rfl, rfl, hnew, hall⟩ := visitCallees_spec.2 _ _ hvisit
        refine ⟨fun x hx => ?_, h.found, fun hnot x hx => ?_⟩
        · rcases List.mem_append.mp hx with hx | hx
          · exact hcurrent.tail ⟨function, hfind, (hnew x (List.mem_reverse.mp hx)).1⟩
          · exact h.stacked x (List.mem_cons_of_mem _ hx)
        · by_cases hxnew : x ∈ new
          · exact .inl (List.mem_append_left _ (List.mem_reverse.mpr hxnew))
          have hx' : x = start ∨ x ∈ visited :=
            hx.imp_right fun hmem => (List.mem_append.mp hmem).resolve_right hxnew
          rcases h.left hnot x hx' with hmem | hleft
          · rcases List.mem_cons.mp hmem with rfl | hmem
            · refine .inr fun callee ⟨caller, hcaller, hcallee⟩ => ?_
              cases hfind.symm.trans hcaller
              exact hall callee hcallee
            · exact .inl (List.mem_append_right _ hmem)
          · exact .inr fun callee hcalls =>
              ⟨(hleft callee hcalls).1, List.mem_append_left _ (hleft callee hcalls).2⟩

theorem stack_of_cycleStep {functions : List LlvmFunctionInfo} {start : String} {s : CycleSearch}
    (h : cycleStep functions start s = none) : s.stack = [] := by
  obtain ⟨stack, visited, recursive⟩ := s
  cases stack with
  | nil => rfl
  | cons current stack =>
    simp only [cycleStep] at h
    split at h
    · cases h
    · split at h <;> cases h

/-- **The search for a way back** finds one exactly where the function is on a cycle of calls. -/
theorem callsItself_iff (functions : List LlvmFunctionInfo) (function : LlvmFunctionInfo) :
    callsItself functions function = true ↔
      Relation.TransGen (Calls functions) function.name function.name := by
  have hstart : CycleInv functions function.name { stack := [function.name] } := by
    refine ⟨fun x hx => ?_, nofun, fun _ x hx => ?_⟩
    · rw [List.mem_singleton.mp hx]
    · exact .inl (List.mem_singleton.mpr (hx.resolve_right List.not_mem_nil))
  obtain ⟨hinv, hdone⟩ := run_spec (lower_wf _) (cycleStep_lower functions function.name)
    CycleInv.step hstart
  refine ⟨hinv.found, fun hcycle => ?_⟩
  by_contra hnot
  have hleft : ∀ x, x = function.name ∨ _ → _ := fun x hx =>
    (hinv.left (Bool.eq_false_iff.mpr hnot) x hx).resolve_left
    (by rw [stack_of_cycleStep hdone]; exact nofun)
  have hreached :=
    mem_of_closed_trans (S := fun x => x ≠ function.name ∧ x ∈ _) (hleft _ (.inl rfl))
    (fun x y hx hedge => hleft x (.inr hx.2) y hedge) hcycle
  exact hreached.1 rfl

/-! ## The module and its call graph -/

/-- A function of the name `caller` has a direct call of the function of the name `callee`. -/
def DirectCall (m : LlvmModuleInfo) (caller callee : String) : Prop :=
  (∃ function ∈ m.functions, function.name = caller ∧ ∃ instruction ∈ function.instructions,
    instruction.isCall = true ∧ instruction.isIndirectCall = false ∧
      instruction.isDxIntrinsicCall = false ∧
      instruction.calledFunction = callee) ∧
  ∃ function ∈ m.functions, function.name = callee

/-- A direct call between functions that have names. -/
def NamedCall (m : LlvmModuleInfo) (caller callee : String) : Prop :=
  DirectCall m caller callee ∧ caller ≠ "" ∧ callee ≠ ""

/-- A function of the name is defined. -/
def Defined (m : LlvmModuleInfo) (name : String) : Prop :=
  ∃ function ∈ m.functions, function.name = name ∧ function.isDeclaration = false

/-- The name is of an entry function or, where no entry has one, of the first function that is
`eligible`. -/
def Root (eligible : LlvmFunctionInfo → Bool) (m : LlvmModuleInfo) (name : String) : Prop :=
  (name ∈ m.entryPoints ∧ name ≠ "") ∨
    ((∀ functionName ∈ m.entryPoints, functionName = "") ∧
      ∃ function, m.functions.find? eligible = some function ∧ function.name = name)

/-- A root that has a name; a dx.op function is not the first one. -/
def NamedRoot (m : LlvmModuleInfo) (name : String) : Prop :=
  Root isEntryCandidate m name ∧ name ≠ ""

/-- A function without what the call graph notes of it. -/
def LlvmFunctionInfo.parsed (function : LlvmFunctionInfo) : LlvmFunctionInfo :=
  { function with
    isEntryReachable := false, isRecursive := false, hasIndirectCalls := false, calledFunctions :=
        [] }

/-- The module `g` has the exact call graph of `m` for these calls and roots. -/
structure Exact (call : String → String → Prop) (root : String → Prop) (m g : LlvmModuleInfo) :
    Prop where
  kept : g.functions.map (·.parsed) = m.functions.map (·.parsed)
  reachable : ∀ function ∈ g.functions, function.isDeclaration = false →
    (function.isEntryReachable = true ↔ ∃ start, root start ∧ Defined m start ∧
      Relation.ReflTransGen (fun x y => call x y ∧ Defined m y) start function.name)
  recursive : ∀ function ∈ g.functions, function.isDeclaration = false →
    (function.isRecursive = true ↔ Relation.TransGen call function.name function.name)
  once : g.callGraph.recursiveFunctions.Nodup
  listed : ∀ name, name ∈ g.callGraph.recursiveFunctions ↔ Defined m name ∧
  Relation.TransGen call name name
  edges : g.callGraph.edges = m.functions.flatMap callEdges
  unused : ∀ name, name ∈ g.callGraph.unusedDxIntrinsicDeclarations ↔
    (∃ function ∈ m.functions, function.name = name ∧ function.isDxIntrinsic = true) ∧
      ∀ edge ∈ g.callGraph.edges, edge.callee ≠ name

/-- The edges of a function are its direct calls. -/
theorem mem_callEdges {function : LlvmFunctionInfo} {edge : LlvmCallGraphEdgeInfo} :
    edge ∈ callEdges function ↔ ∃ i instruction, function.instructions[i]? = some instruction ∧
      instruction.isCall = true ∧ edge = {
        caller := function.name
        callee := instruction.calledFunction
        instructionIndex := i
        isIndirect := instruction.isIndirectCall
        isDxIntrinsic := instruction.isDxIntrinsicCall } := by
  simp only [callEdges, List.mem_filterMap, Prod.exists, List.mem_zipIdx_iff_getElem?]
  constructor
  · rintro ⟨instruction, i, hi, hedge⟩
    split at hedge
    · next hcall => exact ⟨i, instruction, hi, hcall, (Option.some.inj hedge).symm⟩
    · cases hedge
  · rintro ⟨i, instruction, hi, hcall, rfl⟩
    exact ⟨instruction, i, hi, if_pos hcall⟩

/-- A function lists whom it calls, once each. -/
theorem mem_calledFunctions {functions : List LlvmFunctionInfo} {function : LlvmFunctionInfo}
    {callee : String} :
    callee ∈ (collectFunction functions function).calledFunctions ↔
      (∃ instruction ∈ function.instructions, instruction.isCall = true ∧
        instruction.isIndirectCall = false ∧
        instruction.isDxIntrinsicCall = false ∧ instruction.calledFunction = callee) ∧
      (findLlvmFunctionInfo functions callee).isSome = true := by
  simp only [collectFunction, List.mem_filterMap, mem_callEdges]
  constructor
  · rintro ⟨edge, ⟨i, instruction, hi, hcall, rfl⟩, hedge⟩
    split at hedge
    · next hdirect =>
      cases hedge
      simp only [Bool.and_eq_true, Bool.not_eq_true'] at hdirect
      exact ⟨⟨instruction, List.mem_of_getElem? hi, hcall, hdirect.1.1, hdirect.1.2, rfl⟩,
          hdirect.2⟩
    · cases hedge
  · rintro ⟨⟨instruction, hmem, hcall, hindirect, hdx, rfl⟩, hsome⟩
    obtain ⟨i, hi⟩ := List.getElem?_of_mem hmem
    exact ⟨_, ⟨i, instruction, hi, hcall, rfl⟩, by simp [hindirect, hdx, hsome]⟩

theorem names_collectCalls (m : LlvmModuleInfo) :
    (collectCalls m).functions.map (·.name) = m.functions.map (·.name) := by
  rw [collectCalls, List.map_map]
  rfl

theorem find_collectCalls (m : LlvmModuleInfo) (name : String) :
    findLlvmFunctionInfo (collectCalls m).functions name =
      (findLlvmFunctionInfo m.functions name).map (collectFunction m.functions) :=
  find_map (collectFunction m.functions) (fun _ => rfl) _ _

theorem isSome_find_iff {m : LlvmModuleInfo} {name : String} :
    (findLlvmFunctionInfo m.functions name).isSome = true ↔
      name ≠ "" ∧ ∃ function ∈ m.functions, function.name = name := by
  unfold findLlvmFunctionInfo
  split
  · next hname => exact ⟨nofun, fun h => absurd hname h.1⟩
  · next hname => simp [hname]

/-- What is collected are the calls of the module. -/
theorem calls_collectCalls {m : LlvmModuleInfo} (hnodup : (m.functions.map (·.name)).Nodup)
    {caller callee : String} :
    Calls (collectCalls m).functions caller callee ↔ NamedCall m caller callee := by
  simp only [Calls, find_collectCalls, Option.map_eq_some_iff, find_iff hnodup, NamedCall,
    DirectCall]
  constructor
  · rintro ⟨_, ⟨function, ⟨hcaller, hmem, hname⟩, rfl⟩, hcalled⟩
    obtain ⟨hcall, hsome⟩ := mem_calledFunctions.mp hcalled
    obtain ⟨hcallee, htarget⟩ := isSome_find_iff.mp hsome
    exact ⟨⟨⟨function, hmem, hname, hcall⟩, htarget⟩, hcaller, hcallee⟩
  · rintro ⟨⟨⟨function, hmem, hname, hcall⟩, htarget⟩, hcaller, hcallee⟩
    exact ⟨_, ⟨function, ⟨hcaller, hmem, hname⟩, rfl⟩,
      mem_calledFunctions.mpr ⟨hcall, isSome_find_iff.mpr ⟨hcallee, htarget⟩⟩⟩

/-- What can be entered is defined and has a name. -/
theorem open_collectCalls {m : LlvmModuleInfo} (hnodup : (m.functions.map (·.name)).Nodup)
    {name : String} :
    Open (collectCalls m).functions name ↔ Defined m name ∧ name ≠ "" := by
  simp only [Open, find_collectCalls, Option.map_eq_some_iff, find_iff hnodup, Defined]
  constructor
  · rintro ⟨_, ⟨function, ⟨hname, hmem, heq⟩, rfl⟩, hbody⟩
    exact ⟨⟨function, hmem, heq, hbody⟩, hname⟩
  · rintro ⟨⟨function, hmem, heq, hbody⟩, hname⟩
    exact ⟨_, ⟨function, ⟨hname, hmem, heq⟩, rfl⟩, hbody⟩

theorem mem_initialWorklist {m : LlvmModuleInfo} {name : String} :
    name ∈ initialWorklist m ↔
      Root isEntryCandidate m name := by
  have hmem : ∀ functionName, functionName ∈ m.entryPoints.filter (fun functionName =>
      functionName ≠ "") ↔
      functionName ∈ m.entryPoints ∧ functionName ≠ "" := fun functionName => by simp
  unfold initialWorklist Root
  split
  · next hnone =>
    rw [hnone] at hmem
    have hempty : ∀ functionName ∈ m.entryPoints, functionName = "" := fun functionName h => by
      by_contra hne
      exact absurd ((hmem functionName).mpr ⟨h, hne⟩) List.not_mem_nil
    simp only [List.mem_map, Option.mem_toList]
    exact ⟨fun h => .inr ⟨hempty, h⟩, fun h => h.elim (fun h => absurd (hempty _ h.1) h.2) (·.2)⟩
  · next hsome =>
    rw [List.mem_reverse, hmem]
    refine ⟨.inl, fun h => h.elim id fun h => ?_⟩
    obtain ⟨functionName, hname⟩ := List.exists_mem_of_ne_nil _ fun hnil => hsome hnil
    exact absurd (h.1 functionName ((hmem functionName).mp hname).1)
        ((hmem functionName).mp hname).2

theorem root_collectCalls {m : LlvmModuleInfo} {name : String} :
    Root isEntryCandidate (collectCalls m) name ↔
      Root isEntryCandidate m name := by
  unfold Root
  have hfind : (collectCalls m).functions.find? isEntryCandidate =
      (m.functions.find? isEntryCandidate).map
        (collectFunction m.functions) := List.find?_map ..
  simp only [hfind, Option.map_eq_some_iff]
  refine or_congr Iff.rfl (and_congr Iff.rfl ⟨?_, ?_⟩)
  · rintro ⟨_, ⟨function, hfunction, rfl⟩, hname⟩
    exact ⟨function, hfunction, hname⟩
  · rintro ⟨function, hfunction, hname⟩
    exact ⟨_, ⟨function, hfunction, rfl⟩, hname⟩

theorem calls_marked (functions : List LlvmFunctionInfo) (reachable : List String) :
    Calls (functions.map (marked reachable)) = Calls functions := by
  funext caller callee
  simp only [Calls, find_map (marked reachable) fun _ => rfl, Option.map_eq_some_iff]
  refine propext ⟨?_, ?_⟩
  · rintro ⟨_, ⟨function, hfind, rfl⟩, hcallee⟩
    exact ⟨function, hfind, hcallee⟩
  · rintro ⟨function, hfind, hcallee⟩
    exact ⟨_, ⟨function, hfind, rfl⟩, hcallee⟩

/-- The loop over the functions lists those that are on a cycle, each once, and leaves the edges. -/
theorem foldl_recordRecursion (functions : List LlvmFunctionInfo) (l : List LlvmFunctionInfo)
    (graph : LlvmCallGraphInfo) (hnodup : graph.recursiveFunctions.Nodup) :
    (l.foldl (recordRecursion functions) graph).recursiveFunctions.Nodup ∧
    (l.foldl (recordRecursion functions) graph).edges = graph.edges ∧
    ∀ name, name ∈ (l.foldl (recordRecursion functions) graph).recursiveFunctions ↔
      name ∈ graph.recursiveFunctions ∨ ∃ function ∈ l, function.name = name ∧
        function.isDeclaration = false ∧ callsItself functions function = true := by
  induction l generalizing graph with
  | nil => exact ⟨hnodup, rfl, fun name => by simp⟩
  | cons function l ih =>
    have hone : (recordRecursion functions graph function).recursiveFunctions.Nodup ∧
        (recordRecursion functions graph function).edges = graph.edges ∧
        ∀ name, name ∈ (recordRecursion functions graph function).recursiveFunctions ↔
          name ∈ graph.recursiveFunctions ∨ function.name = name ∧
            function.isDeclaration = false ∧ callsItself functions function = true := by
      unfold recordRecursion
      split
      · next hrecursive =>
        rw [Bool.and_eq_true, Bool.not_eq_true'] at hrecursive
        refine ⟨?_, rfl, fun name => ?_⟩
        · dsimp only
          split
          · exact hnodup
          · next hnew => exact List.nodup_append_comm.mp (List.nodup_cons.mpr ⟨hnew, hnodup⟩)
        · dsimp only
          split
          · next hmem =>
            refine ⟨.inl, fun h => h.elim id fun h => h.1 ▸ hmem⟩
          · rw [List.mem_append, List.mem_singleton]
            exact or_congr Iff.rfl ⟨fun h => ⟨h.symm, hrecursive⟩, fun h => h.1.symm⟩
      · next hrecursive =>
        refine ⟨hnodup, rfl, fun name => ⟨.inl, fun h => h.elim id fun h => absurd ?_ hrecursive⟩⟩
        rw [h.2.1, h.2.2]
        rfl
    obtain ⟨hrest, hedges, hmem⟩ := ih _ hone.1
    refine ⟨hrest, hedges.trans hone.2.1, fun name => ?_⟩
    rw [List.foldl_cons, hmem, hone.2.2, or_assoc]
    simp only [List.mem_cons, exists_eq_or_imp]

/-- The edges of the graph are the calls of the module. -/
theorem build_edges (m : LlvmModuleInfo) :
    (buildLlvmCallGraph m).callGraph.edges = m.functions.flatMap callEdges :=
  (foldl_recordRecursion _ _ _ List.nodup_nil).2.1

/-- Every recursive function is listed once. -/
theorem build_once (m : LlvmModuleInfo) :
    (buildLlvmCallGraph m).callGraph.recursiveFunctions.Nodup :=
  (foldl_recordRecursion _ _ _ List.nodup_nil).1

/-- The dx.op functions that are listed are those no edge goes to, as an edge to one is a dx.op
call. -/
theorem build_unused (m : LlvmModuleInfo) (name : String) :
    name ∈ (buildLlvmCallGraph m).callGraph.unusedDxIntrinsicDeclarations ↔
      (∃ function ∈ (buildLlvmCallGraph m).functions, function.name = name ∧
        function.isDxIntrinsic = true) ∧
        ∀ edge ∈ (buildLlvmCallGraph m).callGraph.edges, edge.callee ≠ name := by
  have hdx : ∀ edge ∈ (buildLlvmCallGraph m).callGraph.edges, edge.isDxIntrinsic =
      isDxName edge.callee := by
    intro edge hedge
    rw [build_edges] at hedge
    obtain ⟨function, -, hmem⟩ := List.mem_flatMap.mp hedge
    obtain ⟨i, instruction, -, hcall, rfl⟩ := mem_callEdges.mp hmem
    exact instruction.dx hcall
  have hedges : (buildLlvmCallGraph m).callGraph.edges =
      (markRecursive (markEntryReachable (collectCalls m))).callGraph.edges := rfl
  have hfunctions : (buildLlvmCallGraph m).functions =
      (markRecursive (markEntryReachable (collectCalls m))).functions := rfl
  rw [hfunctions, hedges] at *
  simp only [buildLlvmCallGraph, listUnused, List.mem_map, List.mem_filter, Bool.and_eq_true,
    Bool.not_eq_true', List.any_eq_false, decide_eq_true_eq]
  constructor
  · rintro ⟨function, ⟨hmem, hintrinsic, hunused⟩, rfl⟩
    refine ⟨⟨function, hmem, rfl, hintrinsic⟩, fun edge hedge hcallee =>
        hunused edge hedge ⟨?_, hcallee⟩⟩
    rw [hdx edge hedge, hcallee, ← function.dx, hintrinsic]
  · rintro ⟨⟨function, hmem, rfl, hintrinsic⟩, hunused⟩
    exact ⟨function, ⟨hmem, hintrinsic, fun edge hedge huse => hunused edge hedge huse.2⟩, rfl⟩

/-- What the whole makes of a function. -/
theorem functions_buildLlvmCallGraph (m : LlvmModuleInfo)
    (hnodup : (m.functions.map (·.name)).Nodup) :
    ∃ reachable, (∀ name, name ∈ reachable ↔
        Chain (collectCalls m).functions (initialWorklist (collectCalls m)) name ∧
          Open (collectCalls m).functions name) ∧
      (markEntryReachable (collectCalls m)).functions =
        (collectCalls m).functions.map (marked reachable) := by
  have hclear : ∀ function ∈ (collectCalls m).functions, function.isEntryReachable = false := by
    intro function hfunction
    obtain ⟨source, -, rfl⟩ := List.mem_map.mp hfunction
    rfl
  obtain ⟨reachable, heq, hmem⟩ :=
    entrySearch_spec (names_collectCalls m ▸ hnodup) hclear (initialWorklist (collectCalls m))
  exact ⟨reachable, hmem, heq⟩

section

variable {m : LlvmModuleInfo} (hnodup : (m.functions.map (·.name)).Nodup)
include hnodup

theorem callsItself_markEntryReachable (function : LlvmFunctionInfo) :
    callsItself (markEntryReachable (collectCalls m)).functions function = true ↔
      Relation.TransGen (NamedCall m) function.name function.name := by
  obtain ⟨reachable, -, heq⟩ := functions_buildLlvmCallGraph m hnodup
  have hcalls : Calls (collectCalls m).functions = NamedCall m := by
    funext caller callee
    exact propext (calls_collectCalls hnodup)
  rw [callsItself_iff, heq, calls_marked, hcalls]

theorem build_kept : (buildLlvmCallGraph m).functions.map (·.parsed) = m.functions.map
    (·.parsed) := by
  obtain ⟨reachable, -, heq⟩ := functions_buildLlvmCallGraph m hnodup
  have hmarked : (buildLlvmCallGraph m).functions.map (·.parsed) =
      (markEntryReachable (collectCalls m)).functions.map (·.parsed) := by
    refine (List.map_map ..).trans (List.map_congr_left fun function _ => ?_)
    simp only [Function.comp_apply]
    split <;> rfl
  rw [hmarked, heq, List.map_map, collectCalls, List.map_map]
  rfl

/-- A function of the result is one of those that were marked, up to the mark for recursion. -/
theorem mem_build {function : LlvmFunctionInfo} (h : function ∈ (buildLlvmCallGraph m).functions) :
    ∃ source ∈ (markEntryReachable (collectCalls m)).functions, function.name = source.name ∧
      function.isDeclaration = source.isDeclaration ∧ function.isEntryReachable =
        source.isEntryReachable ∧
      function.isRecursive =
        (!source.isDeclaration && callsItself
          (markEntryReachable (collectCalls m)).functions source) := by
  obtain ⟨reachable, -, heq⟩ := functions_buildLlvmCallGraph m hnodup
  obtain ⟨source, hsource, rfl⟩ := List.mem_map.mp h
  refine ⟨source, hsource, ?_⟩
  split
  · next hrecursive => exact ⟨rfl, rfl, rfl, hrecursive.symm⟩
  · next hrecursive =>
    refine ⟨rfl, rfl, rfl, ?_⟩
    rw [Bool.eq_false_iff.mpr hrecursive]
    rw [heq] at hsource
    obtain ⟨collected, hcollected, rfl⟩ := List.mem_map.mp hsource
    obtain ⟨parsed, -, rfl⟩ := List.mem_map.mp hcollected
    rfl

/-- A chain from an entry is a chain of named calls from a defined root. -/
theorem chain_iff (name : String) :
    Chain (collectCalls m).functions (initialWorklist (collectCalls m)) name ∧
        Open (collectCalls m).functions name ↔
      ∃ start, NamedRoot m start ∧ Defined m start ∧
        Relation.ReflTransGen (fun x y => NamedCall m x y ∧ Defined m y) start name := by
  have hedge : (fun x y => Calls (collectCalls m).functions x y ∧
      Open (collectCalls m).functions y) =
      fun x y => NamedCall m x y ∧ Defined m y := by
    funext x y
    rw [calls_collectCalls hnodup, open_collectCalls hnodup]
    exact propext ⟨fun h => ⟨h.1, h.2.1⟩, fun h => ⟨h.1, h.2, h.1.2.2⟩⟩
  constructor
  · rintro ⟨⟨start, hroot, hpath⟩, hopen⟩
    obtain ⟨hstart, hchain⟩ := reflTransGen_within.mpr ⟨hpath, hopen⟩
    rw [hedge] at hchain
    rw [mem_initialWorklist, root_collectCalls] at hroot
    obtain ⟨hdefined, hname⟩ := (open_collectCalls hnodup).mp hstart
    exact ⟨start, ⟨hroot, hname⟩, hdefined, hchain⟩
  · rintro ⟨start, ⟨hroot, hname⟩, hdefined, hchain⟩
    rw [← hedge] at hchain
    obtain ⟨hpath, hopen⟩ := reflTransGen_within.mp ⟨(open_collectCalls hnodup).mpr ⟨hdefined,
        hname⟩, hchain⟩
    exact ⟨⟨start, mem_initialWorklist.mpr (root_collectCalls.mpr hroot), hpath⟩, hopen⟩

/-- A function is marked exactly where a chain of calls leads to it from an entry. -/
theorem build_reachable {function : LlvmFunctionInfo}
    (h : function ∈ (buildLlvmCallGraph m).functions) :
    function.isEntryReachable = true ↔ ∃ start, NamedRoot m start ∧ Defined m start ∧
      Relation.ReflTransGen (fun x y => NamedCall m x y ∧ Defined m y) start function.name := by
  obtain ⟨reachable, hmem, heq⟩ := functions_buildLlvmCallGraph m hnodup
  obtain ⟨source, hsource, hname, -, hmark, -⟩ := mem_build hnodup h
  rw [heq] at hsource
  obtain ⟨collected, -, rfl⟩ := List.mem_map.mp hsource
  rw [hmark, hname, ← chain_iff hnodup, ← hmem]
  exact decide_eq_true_iff

/-- A function is recursive exactly where a chain of calls leads back to it. -/
theorem build_recursive {function : LlvmFunctionInfo}
    (h : function ∈ (buildLlvmCallGraph m).functions) (hbody : function.isDeclaration = false) :
    function.isRecursive = true ↔ Relation.TransGen (NamedCall m) function.name function.name := by
  obtain ⟨source, -, hname, hdeclaration, -, hrecursive⟩ := mem_build hnodup h
  rw [hrecursive, hname, ← callsItself_markEntryReachable hnodup source, ← hdeclaration, hbody]
  rfl

/-- A name is listed exactly where its function is recursive. -/
theorem build_listed (name : String) :
    name ∈ (buildLlvmCallGraph m).callGraph.recursiveFunctions ↔
      Defined m name ∧ Relation.TransGen (NamedCall m) name name := by
  obtain ⟨reachable, -, heq⟩ := functions_buildLlvmCallGraph m hnodup
  refine ((foldl_recordRecursion _ _ _ List.nodup_nil).2.2 name).trans ⟨fun h => ?_, fun h =>
      .inr ?_⟩
  · obtain ⟨function, hfunction, rfl, hbody, hrecursive⟩ := h.resolve_left List.not_mem_nil
    rw [callsItself_markEntryReachable hnodup] at hrecursive
    rw [heq] at hfunction
    obtain ⟨collected, hcollected, rfl⟩ := List.mem_map.mp hfunction
    obtain ⟨source, hsource, rfl⟩ := List.mem_map.mp hcollected
    exact ⟨⟨source, hsource, rfl, hbody⟩, hrecursive⟩
  · obtain ⟨⟨source, hsource, rfl, hbody⟩, hcycle⟩ := h
    refine ⟨marked reachable (collectFunction m.functions source), ?_, rfl, hbody, ?_⟩
    · rw [heq]
      exact List.mem_map_of_mem (List.mem_map_of_mem hsource)
    · exact (callsItself_markEntryReachable hnodup _).mpr hcycle

end

/-- What the parser has of a function is not changed. -/
theorem exists_of_kept {functions functions' : List LlvmFunctionInfo}
    (h : functions.map (·.parsed) = functions'.map (·.parsed)) {function : LlvmFunctionInfo}
    (hmem : function ∈ functions) : ∃ other ∈ functions', other.parsed = function.parsed := by
  have hparsed : function.parsed ∈ functions'.map (·.parsed) := h ▸ List.mem_map_of_mem hmem
  exact List.mem_map.mp hparsed

theorem exists_intrinsic_of_kept {functions functions' : List LlvmFunctionInfo}
    (h : functions.map (·.parsed) = functions'.map (·.parsed)) {name : String}
    (hex : ∃ function ∈ functions, function.name = name ∧ function.isDxIntrinsic = true) :
    ∃ function ∈ functions', function.name = name ∧ function.isDxIntrinsic = true := by
  obtain ⟨function, hmem, hname, hintrinsic⟩ := hex
  obtain ⟨other, hother, hparsed⟩ := exists_of_kept h hmem
  have hsame : other.name = function.name := (congrArg LlvmFunctionInfo.name hparsed :)
  have hflag : other.isDxIntrinsic = function.isDxIntrinsic :=
    (congrArg LlvmFunctionInfo.isDxIntrinsic hparsed :)
  exact ⟨other, hother, hsame.trans hname, hflag.trans hintrinsic⟩

/-- **The call graph is exact** for calls by name: with distinct names of functions, what is marked
and listed is what chains and cycles of direct calls between functions with names say. -/
theorem callGraph_exact (m : LlvmModuleInfo) (hnodup : (m.functions.map (·.name)).Nodup) :
    Exact (NamedCall m) (NamedRoot m) m (buildLlvmCallGraph m) where
  kept := build_kept hnodup
  reachable _ hmem _ := build_reachable hnodup hmem
  recursive _ hmem hbody := build_recursive hnodup hmem hbody
  once := build_once m
  listed := build_listed hnodup
  edges := build_edges m
  unused name := by
    rw [build_unused]
    have hkept := build_kept hnodup
    exact and_congr_left' ⟨exists_intrinsic_of_kept hkept, exists_intrinsic_of_kept hkept.symm⟩

/-- A call of the callee. -/
def directCall (callee : String) : LlvmInstructionInfo where
  isCall := true
  isIndirectCall := false
  calledFunction := callee
  isDxIntrinsicCall := isDxName callee
  dx _ := rfl

/-- A defined function that calls the callees. -/
def definedFunction (name : String) (callees : List String) : LlvmFunctionInfo where
  name
  isDeclaration := false
  isDxIntrinsic := isDxName name
  instructions := callees.map directCall
  dx := rfl

/-- The entry calls a function that calls itself. -/
def looping : LlvmModuleInfo where
  entryPoints := ["main"]
  functions := [definedFunction "main" ["helper"], definedFunction "helper" ["helper"]]

theorem callGraph_exact_looping :
    "helper" ∈ (buildLlvmCallGraph looping).callGraph.recursiveFunctions := by
  refine ((callGraph_exact looping (by decide)).listed "helper").mpr
    ⟨⟨_, .tail _ (.head _), rfl, rfl⟩, .single ⟨⟨⟨_, .tail _ (.head _), rfl, ?_⟩, ?_⟩, by decide,
      by decide⟩⟩
  · exact ⟨directCall "helper", .head _, rfl, rfl, by decide, rfl⟩
  · exact ⟨_, .tail _ (.head _), rfl⟩

/-- A module with one function, which has a body, and no entry points. -/
def onlyFunction (name : String) : LlvmModuleInfo where
  entryPoints := []
  functions := [definedFunction name []]

/-- The only function should be where the search starts; it is marked where it is a `NamedRoot`. -/
theorem namedRoot_of_exact {name : String}
    (h : Exact (DirectCall (onlyFunction name)) (Root LlvmFunctionInfo.hasBody (onlyFunction name))
      (onlyFunction name) (buildLlvmCallGraph (onlyFunction name))) :
    NamedRoot (onlyFunction name) name := by
  have hnodup : ((onlyFunction name).functions.map (·.name)).Nodup := List.nodup_singleton _
  obtain ⟨function, hmem, hparsed⟩ :=
    exists_of_kept h.kept.symm (List.mem_singleton_self (definedFunction name []))
  have hname : function.name = name := (congrArg LlvmFunctionInfo.name hparsed :)
  have hbody : function.isDeclaration = false := (congrArg LlvmFunctionInfo.isDeclaration hparsed :)
  have hmark := (h.reachable function hmem hbody).mpr
    ⟨name, .inr ⟨nofun, _, rfl, rfl⟩, ⟨_, List.mem_singleton_self _, rfl, rfl⟩, hname ▸ .refl⟩
  obtain ⟨start, hroot, ⟨source, hsource, heq, -⟩, -⟩ := (build_reachable hnodup hmem).mp hmark
  rw [List.mem_singleton.mp hsource] at heq
  have heq : name = start := heq
  exact heq ▸ hroot

/-- The first function with a body is not marked where it has no name, or is a dx.op function. -/
theorem unnamed_not_reachable :
    ¬Exact (DirectCall (onlyFunction "")) (Root LlvmFunctionInfo.hasBody (onlyFunction ""))
        (onlyFunction "") (buildLlvmCallGraph (onlyFunction "")) ∧
    ¬Exact (DirectCall (onlyFunction "dx.op.f")) (Root LlvmFunctionInfo.hasBody
        (onlyFunction "dx.op.f"))
        (onlyFunction "dx.op.f") (buildLlvmCallGraph (onlyFunction "dx.op.f")) := by
  refine ⟨fun h => (namedRoot_of_exact h).2 rfl, fun h => ?_⟩
  obtain ⟨hentry, -⟩ | ⟨-, function, hfind, -⟩ := (namedRoot_of_exact h).1
  · cases hentry
  · have hnone : (onlyFunction "dx.op.f").functions.find?
        isEntryCandidate = none := by decide
    exact absurd (hnone.symm.trans hfind) nofun

end CallGraph

end Dxmt
