import Mathlib.Data.Set.Lattice
import Mathlib.Order.CompletePartialOrder

/-!
# Commands with footprints

A command on a memory has a set of locations that it reads and one that it writes. Nothing outside
the second changes, and what is written depends on the first only. Two commands are apart when
neither writes what the other reads or writes; then their order does not matter
(`Command.run_comm`).

A list of commands is executed in order, and the labelled ones are observed with what they read. The
rules are for a list that is not executed in order: a labelled command goes before unlabelled ones
that it is apart from (`observe_pull`), and a write from outside goes before or behind a list that
is apart from it (`execute_write`, `observe_write`).
-/

namespace Dxmt

namespace Footprint

variable {Loc Val Label : Type}

/-- A command with the locations that it reads and writes. -/
structure Command (Loc Val : Type) where
  reads : Set Loc
  writes : Set Loc
  run : (Loc → Val) → Loc → Val
  frame : ∀ m, ∀ l ∉ writes, run m l = m l
  depends : ∀ m m', (∀ l ∈ reads, m l = m' l) → ∀ l ∈ writes, run m l = run m' l

namespace Command

variable {c d : Command Loc Val} {m m' : Loc → Val}

/-- The locations that a command reads or writes. -/
def touches (c : Command Loc Val) : Set Loc :=
  c.reads ∪ c.writes

/-- Neither command writes what the other touches. -/
def Apart (c d : Command Loc Val) : Prop :=
  Disjoint c.writes d.touches ∧ Disjoint d.writes c.touches

theorem Apart.symm (h : Apart c d) : Apart d c :=
  ⟨h.2, h.1⟩

theorem Apart.not_mem_writes (h : Apart c d) {l : Loc} (hl : l ∈ d.touches) : l ∉ c.writes :=
  fun hc => Set.disjoint_left.mp h.1 hc hl

/-- Before a command that is apart, a command reads the same. -/
theorem Apart.reads_eq (h : Apart c d) (m : Loc → Val) : ∀ l ∈ d.reads, c.run m l = m l :=
  fun l hl => c.frame m l (h.not_mem_writes (Set.mem_union_left _ hl))

theorem Apart.run_eq_of_mem (h : Apart c d) (m : Loc → Val) {l : Loc} (hl : l ∈ d.writes) :
    c.run (d.run m) l = d.run (c.run m) l := by
  rw [c.frame _ l (h.not_mem_writes (Set.mem_union_right _ hl))]
  exact (d.depends (c.run m) m (h.reads_eq m) l hl).symm

/-- Commands that are apart commute. -/
theorem run_comm (h : Apart c d) (m : Loc → Val) : c.run (d.run m) = d.run (c.run m) := by
  funext l
  by_cases hd : l ∈ d.writes
  · exact h.run_eq_of_mem m hd
  by_cases hc : l ∈ c.writes
  · exact (h.symm.run_eq_of_mem m hc).symm
  · rw [c.frame _ l hc, d.frame _ l hd, d.frame _ l hd, c.frame _ l hc]

/-- What a command reads. -/
noncomputable def observed (c : Command Loc Val) (m : Loc → Val) : Loc → Option Val := by
  classical
  exact fun l => if l ∈ c.reads then some (m l) else none

theorem observed_congr (h : ∀ l ∈ c.reads, m l = m' l) : c.observed m = c.observed m' := by
  funext l
  unfold observed
  by_cases hl : l ∈ c.reads
  · rw [if_pos hl, if_pos hl, h l hl]
  · rw [if_neg hl, if_neg hl]

end Command

/-! ## Lists of commands -/

/-- A command, with a label when it is to be observed. -/
structure Entry (Label Loc Val : Type) where
  label : Option Label
  command : Command Loc Val

/-- A command that was observed. -/
structure Observation (Label Loc Val : Type) where
  label : Label
  contents : Loc → Option Val

variable {entries rest : List (Entry Label Loc Val)} {entry : Entry Label Loc Val}
  {c : Command Loc Val} {m m' : Loc → Val}

/-- The memory after the entries. -/
def execute (entries : List (Entry Label Loc Val)) (m : Loc → Val) : Loc → Val :=
  entries.foldl (fun m entry => entry.command.run m) m

/-- What the entry observes: its label and what it reads. -/
noncomputable def Entry.observe (entry : Entry Label Loc Val) (m : Loc → Val) :
    List (Observation Label Loc Val) :=
  match entry.label with
  | none => []
  | some label => [⟨label, entry.command.observed m⟩]

/-- What the entries observe, in order. -/
noncomputable def observe : List (Entry Label Loc Val) → (Loc → Val) →
    List (Observation Label Loc Val)
  | [], _ => []
  | entry :: entries, m => entry.observe m ++ observe entries (entry.command.run m)

theorem execute_cons (entry : Entry Label Loc Val) (entries : List (Entry Label Loc Val))
    (m : Loc → Val) : execute (entry :: entries) m = execute entries (entry.command.run m) :=
  rfl

theorem execute_append (xs ys : List (Entry Label Loc Val)) (m : Loc → Val) :
    execute (xs ++ ys) m = execute ys (execute xs m) :=
  List.foldl_append

theorem observe_append (xs ys : List (Entry Label Loc Val)) (m : Loc → Val) :
    observe (xs ++ ys) m = observe xs m ++ observe ys (execute xs m) := by
  induction xs generalizing m with
  | nil => rfl
  | cons entry xs ih =>
    rw [List.cons_append, observe, ih, observe, List.append_assoc]
    rfl

theorem Entry.observe_congr (h : ∀ l ∈ entry.command.reads, m l = m' l) :
    entry.observe m = entry.observe m' := by
  unfold Entry.observe
  rw [Command.observed_congr h]

/-- A list leaves the locations alone that none of its commands writes. -/
theorem execute_of_not_mem {l : Loc} (h : ∀ entry ∈ entries, l ∉ entry.command.writes) :
    execute entries m l = m l := by
  induction entries generalizing m with
  | nil => rfl
  | cons entry entries ih =>
    rw [List.forall_mem_cons] at h
    rw [execute_cons, ih h.2, entry.command.frame m l h.1]

/-- A write before a list is a write behind it. -/
theorem execute_write (h : ∀ entry ∈ entries, c.Apart entry.command) :
    execute entries (c.run m) = c.run (execute entries m) := by
  induction entries generalizing m with
  | nil => rfl
  | cons entry entries ih =>
    rw [List.forall_mem_cons] at h
    rw [execute_cons, execute_cons, ← Command.run_comm h.1, ih h.2]

/-- A list does not see a write that it is apart from. -/
theorem observe_write (h : ∀ entry ∈ entries, c.Apart entry.command) :
    observe entries (c.run m) = observe entries m := by
  induction entries generalizing m with
  | nil => rfl
  | cons entry entries ih =>
    rw [List.forall_mem_cons] at h
    rw [observe, observe, Entry.observe_congr (h.1.reads_eq m), ← Command.run_comm h.1, ih h.2]

theorem observe_eq_nil (h : ∀ entry ∈ entries, entry.label = none) : observe entries m = [] := by
  induction entries generalizing m with
  | nil => rfl
  | cons entry entries ih =>
    rw [List.forall_mem_cons] at h
    unfold observe Entry.observe
    rw [h.1, ih h.2]
    rfl

/-- A command is executed before the ones in front of it. -/
theorem execute_pull (happart : ∀ other ∈ entries, other.command.Apart entry.command) :
    execute (entries ++ entry :: rest) m = execute (entries ++ rest) (entry.command.run m) := by
  rw [execute_append, execute_append, execute_cons,
    execute_write fun other hmem => (happart other hmem).symm]

/-- A labelled command is observed before the unlabelled ones in front of it. -/
theorem observe_pull (hlabel : ∀ other ∈ entries, other.label = none)
    (happart : ∀ other ∈ entries, other.command.Apart entry.command) :
    observe (entries ++ entry :: rest) m =
      entry.observe m ++ observe (entries ++ rest) (entry.command.run m) := by
  have hreads : ∀ l ∈ entry.command.reads, execute entries m l = m l := fun l hl =>
    execute_of_not_mem fun other hmem =>
      (happart other hmem).not_mem_writes (Set.mem_union_left _ hl)
  rw [observe_append, observe_append, observe_eq_nil hlabel, observe_eq_nil hlabel, observe,
    Entry.observe_congr hreads, execute_write fun other hmem => (happart other hmem).symm,
    List.nil_append, List.nil_append]

end Footprint

end Dxmt
