import Mathlib.Logic.Function.Basic
import Mathlib.Data.List.Basic

/-!
# Tables that refer to each other

A store has tables of records, and a record refers to others, each by its table and its index there.
A store is closed where every reference is below the size of the table it points into.

A reader fills one table after the other, reads the records of a table one by one, and checks what a
record refers to against the tables that are filled. What it builds is closed: `Built.fill`.
-/

namespace Dxmt

namespace ReferenceTables

variable {τ α : Type}

/-! ## Records of one table -/

/-- The records of a table, read one by one. -/
def readRecords (read : Nat → Option α) (count : Nat) : Option (List α) :=
  (List.range count).mapM read

theorem mapM_eq_some_iff {β : Type} {read : β → Option α} {indices : List β} {records : List α} :
    indices.mapM read = some records ↔ indices.map read = records.map some := by
  induction indices generalizing records with
  | nil =>
    constructor
    · intro h
      cases h
      rfl
    · intro h
      rw [List.map_eq_nil_iff.mp h.symm]
      rfl
  | cons index indices ih =>
    rw [List.mapM_cons, List.map_cons]
    constructor
    · intro h
      obtain ⟨record, hrecord, hrest⟩ := Option.bind_eq_some_iff.mp h
      obtain ⟨rest, hread, hcons⟩ := Option.bind_eq_some_iff.mp hrest
      cases hcons
      rw [hrecord, ih.mp hread, List.map_cons]
    · intro h
      obtain ⟨record, rest, rfl, hrecord, hrest⟩ := List.map_eq_cons_iff.mp h.symm
      rw [← hrecord, ih.mpr hrest.symm]
      rfl

theorem readRecords_eq_some_iff {read : Nat → Option α} {count : Nat} {records : List α} :
    readRecords read count = some records ↔ (List.range count).map read = records.map some :=
  mapM_eq_some_iff

section Read

variable {read : Nat → Option α} {count : Nat} {records : List α}

theorem length_of_readRecords (h : readRecords read count = some records) :
    records.length = count := by
  have hlength := congrArg List.length (readRecords_eq_some_iff.mp h)
  rw [List.length_map, List.length_map, List.length_range] at hlength
  exact hlength.symm

theorem read_eq_getElem (h : readRecords read count = some records) {i : Nat}
    (hi : i < records.length) :
    read i = some records[i] := by
  have hget := congrArg (·[i]?) (readRecords_eq_some_iff.mp h)
  have hcount : i < count := length_of_readRecords h ▸ hi
  rw [List.getElem?_map, List.getElem?_map, List.getElem?_range hcount,
    List.getElem?_eq_getElem hi] at hget
  exact Option.some.inj hget

/-- Every record is read somewhere. -/
theorem read_of_mem (h : readRecords read count = some records) {record : α}
    (hrecord : record ∈ records) :
    ∃ i < count, read i = some record := by
  have hmem : some record ∈ (List.range count).map read :=
    readRecords_eq_some_iff.mp h ▸ List.mem_map_of_mem hrecord
  obtain ⟨i, hi, hread⟩ := List.mem_map.mp hmem
  exact ⟨i, List.mem_range.mp hi, hread⟩

/-- Every place is read. -/
theorem mem_of_lt (h : readRecords read count = some records) {i : Nat} (hi : i < count) :
    ∃ record ∈ records, read i = some record := by
  have hmem : read i ∈ records.map some :=
    readRecords_eq_some_iff.mp h ▸ List.mem_map_of_mem (List.mem_range.mpr hi)
  obtain ⟨record, hrecord, hread⟩ := List.mem_map.mp hmem
  exact ⟨record, hrecord, hread.symm⟩

/-- Where a record keeps its place as a number, the number is below the size of the table. -/
theorem number_lt (number : α → Nat) (h : readRecords read count = some records)
    (hnumber : ∀ i record, read i = some record → number record ≤ i) {record : α}
    (hrecord : record ∈ records) :
    number record < records.length := by
  obtain ⟨i, hi, hread⟩ := read_of_mem h hrecord
  rw [length_of_readRecords h]
  exact Nat.lt_of_le_of_lt (hnumber i record hread) hi

end Read

/-! ## Stores -/

/-- The records of every table, as what they refer to. -/
abbrev Store (τ : Type) := τ → List (List (τ × Nat))

/-- The reference is below the size of the table it points into. -/
def InTable (s : Store τ) (reference : τ × Nat) : Prop :=
  reference.2 < (s reference.1).length

/-- Every reference of every record names a record. -/
def Closed (s : Store τ) : Prop :=
  ∀ t, ∀ record ∈ s t, ∀ reference ∈ record, InTable s reference

/-- A closed store in which only some tables are filled. -/
structure Built (s : Store τ) (filled : List τ) : Prop where
  closed : Closed s
  unfilled : ∀ t, t ∉ filled → s t = []

theorem Built.empty : Built (fun _ : τ => []) [] :=
  ⟨fun _ _ h => absurd h List.not_mem_nil, fun _ _ => rfl⟩

section Fill

variable [DecidableEq τ] {s : Store τ} {t : τ} {records : List (List (τ × Nat))}

theorem InTable.fill (hempty : s t = []) {reference : τ × Nat} (h : InTable s reference) :
    InTable (Function.update s t records) reference := by
  have hne : reference.1 ≠ t := by
    rintro rfl
    rw [InTable, hempty] at h
    exact Nat.not_lt_zero _ h
  rw [InTable, Function.update_of_ne hne]
  exact h

/-- **A table is filled** with records that refer to tables filled before. -/
theorem Built.fill {filled : List τ} (h : Built s filled) (hnew : t ∉ filled)
    (hrecords : ∀ record ∈ records, ∀ reference ∈ record, InTable s reference) :
    Built (Function.update s t records) (t :: filled) where
  closed t' record hrecord reference hreference := by
    apply InTable.fill (h.unfilled t hnew)
    by_cases ht : t' = t
    · subst ht
      rw [Function.update_self] at hrecord
      exact hrecords record hrecord reference hreference
    · rw [Function.update_of_ne ht] at hrecord
      exact h.closed t' record hrecord reference hreference
  unfilled t' ht' := by
    rw [List.mem_cons, not_or] at ht'
    rw [Function.update_of_ne ht'.1]
    exact h.unfilled t' ht'.2

end Fill

end ReferenceTables

end Dxmt
