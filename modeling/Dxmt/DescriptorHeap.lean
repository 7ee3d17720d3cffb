import Mathlib.Data.List.Basic
import Mathlib.Order.Nat

/-!
# Descriptor heaps: `CreateDescriptorHeap`, `CopyDescriptors`, `CopyDescriptorsSimple`

A CPU handle is the address of a record. A record keeps what it is (the type of its heap, its index
and how many records the heap has), and a range of handles is checked against that alone.
`CopyDescriptors` walks two lists of ranges that are cut differently: it collects the destinations,
then reads the sources, and writes only when all of them were found.

Addresses count records, and zero is the null handle. The lookup reads the magic number behind any
other handle, so a handle that is no record's is read outside of the heaps: this, like every other
access that leaves the records, is `none`. The parameters of a view and their validation are the
view that a record holds. Heaps are not destroyed, since a handle must not be used after that. A
null array of sizes is a size of one for each range, and null arrays of offsets are left out.

Result: `copyDescriptors_exact`.

Source: `d3d12_descriptor_heap.cpp:16-30, 178-230`, `d3d12_device.cpp:583-598, 1271-1536`.
-/

namespace Dxmt

namespace Descriptors

/-- `D3D12_DESCRIPTOR_HEAP_TYPE`. -/
inductive HeapType where
  | cbvSrvUav
  | sampler
  | rtv
  | dsv
deriving DecidableEq

/-- What a record says of itself. -/
structure Place where
  heapType : HeapType
  shaderVisible : Bool
  cpuHandle : Nat
  heapIndex : Nat
  heapCount : Nat

/-- `DescriptorRecord`, and the view in it. -/
structure DescriptorRecord (V : Type) where
  place : Place
  view : V

/-- The records by their addresses. -/
def Records (V : Type) : Type := Nat → Option (DescriptorRecord V)

/-- `UINT_MAX`. -/
def uintMax : Nat := 0xffffffff

namespace Records

variable {V : Type} (records : Records V)

/-- Changes one record. -/
def setRecord (handle : Nat) (record : DescriptorRecord V) : Records V := fun other =>
  if other = handle then some record else records other

/-- `GetDescriptorRecordFromCpuHandle`, which reads `magic` behind a handle that is not null. -/
def getDescriptorRecord (handle : Nat) (expectedType : HeapType) :
    Option (Option (DescriptorRecord V)) :=
  if handle = 0 then some none
  else
    match records handle with
    | none => none
    | some record => some (if record.place.heapType ≠ expectedType then none else some record)

/-- `GetDescriptorRecordRangeFromCpuHandle`. -/
def getDescriptorRecordRange (handle : Nat) (expectedType : HeapType) (descriptorCount : Nat) :
    Option (Option Nat) :=
  match records.getDescriptorRecord handle expectedType with
  | none => none
  | some none => some none
  | some (some record) =>
    if descriptorCount ≠ 0 ∧ (record.place.heapCount ≤ record.place.heapIndex ∨
        record.place.heapCount - record.place.heapIndex < descriptorCount) then some none
    else some (some handle)

/-- The first loop of `CopyDescriptors`; `some none` is a return. -/
def destinations (type : HeapType) : List (Nat × Nat) → (dstTotal : Nat) → List Nat →
    Option (Option (List Nat))
  | [], _, found => some (some found)
  | (handle, count) :: ranges, dstTotal, found =>
    if count = 0 then destinations type ranges dstTotal found
    else
      match records.getDescriptorRecordRange handle type count with
      | none => none
      | some none => some none
      | some (some dst) =>
        if uintMax - count < dstTotal then some none
        else destinations type ranges (dstTotal + count) (found ++ List.range' dst count)

/-- The second loop: where `copied` is read. -/
def sources (type : HeapType) (needed : Nat) : List (Nat × Nat) → List Nat →
    Option (Option (List Nat))
  | [], copied => some (some copied)
  | (handle, count) :: ranges, copied =>
    if count = 0 then sources type needed ranges copied
    else
      match records.getDescriptorRecordRange handle type count with
      | none => none
      | some none => some none
      | some (some src) =>
        let copied := copied ++ (List.range' src count).take (needed - copied.length)
        if copied.length = needed then some (some copied) else sources type needed ranges copied

/-- `CopyDescriptorRecord`: all but the place in the heap. -/
def copyDescriptorRecord (dst src : DescriptorRecord V) : DescriptorRecord V :=
  { src with place := dst.place }

/-- One turn of the last loop; what is copied was read before the first turn. -/
def copyOne (copied records : Records V) (pair : Nat × Nat) : Option (Records V) :=
  match copied pair.2, records pair.1 with
  | some src, some dst => some (records.setRecord pair.1 (copyDescriptorRecord dst src))
  | _, _ => none

/-- Copies pair after pair; nothing where a record is missing. -/
def copyAll (pairs : List (Nat × Nat)) : Option (Records V) :=
  pairs.foldlM (copyOne records) records

/-- `CopyDescriptors`. -/
def copyDescriptors (dstRanges srcRanges : List (Nat × Nat)) (type : HeapType) :
    Option (Records V) :=
  match records.destinations type dstRanges 0 [] with
  | none => none
  | some none => some records
  | some (some dsts) =>
    if dsts = [] then some records
    else
      match records.sources type dsts.length srcRanges [] with
      | none => none
      | some none => some records
      | some (some srcs) =>
        if srcs.length ≠ dsts.length then some records else records.copyAll (dsts.zip srcs)

/-- `CopyDescriptorsSimple`. -/
def copyDescriptorsSimple (descriptorCount dst src : Nat) (type : HeapType) : Option (Records V) :=
  if descriptorCount = 0 then some records
  else
    match records.getDescriptorRecordRange dst type descriptorCount,
      records.getDescriptorRecordRange src type descriptorCount with
    | some (some dst), some (some src) =>
      records.copyAll ((List.range' dst descriptorCount).zip (List.range' src descriptorCount))
    | some _, some _ => some records
    | _, _ => none

/-- `GetDescriptorRecordForWrite`. -/
def getDescriptorRecordForWrite (handle : Nat) (expectedType : HeapType) :
    Option (Option (DescriptorRecord V)) :=
  match records.getDescriptorRecordRange handle expectedType 1 with
  | none => none
  | some none => some none
  | some (some dst) => (records dst).map some

/-- `CreateConstantBufferView` and its siblings: the record is reset and gets the view. -/
def createView (handle : Nat) (type : HeapType) (view : V) : Option (Records V) :=
  match records.getDescriptorRecordForWrite handle type with
  | none => none
  | some none => some records
  | some (some record) => some (records.setRecord handle { record with view := view })

/-- `DescriptorHeapImpl`. -/
def createDescriptorHeap (base count : Nat) (type : HeapType) (shaderVisible : Bool) (empty : V) :
    Records V := fun handle =>
  if base ≤ handle ∧ handle < base + count then
    some ⟨⟨type, shaderVisible, handle, handle - base, count⟩, empty⟩
  else records handle

end Records

/-! ## Runs -/

/-- The calls that change descriptors. -/
inductive Call (V : Type) where
  | createDescriptorHeap (base count : Nat) (type : HeapType) (shaderVisible : Bool) (empty : V)
  | createView (handle : Nat) (type : HeapType) (view : V)
  | copyDescriptors (dstRanges srcRanges : List (Nat × Nat)) (type : HeapType)
  | copyDescriptorsSimple (descriptorCount dst src : Nat) (type : HeapType)

namespace Records

variable {V : Type}

/-- A call. The memory of a heap is not null and not in use, and `NumDescriptors` is a `UINT`. -/
def step (records : Records V) : Call V → Option (Records V)
  | .createDescriptorHeap base count type shaderVisible empty =>
    if base ≠ 0 ∧ count ≠ 0 ∧ count ≤ uintMax ∧ ¬((type = .rtv ∨ type = .dsv) ∧ shaderVisible =
        true) ∧
        ((List.range' base count).all fun handle => (records handle).isNone) = true then
      some (records.createDescriptorHeap base count type shaderVisible empty)
    else none
  | .createView handle type view => records.createView handle type view
  | .copyDescriptors dstRanges srcRanges type => records.copyDescriptors dstRanges srcRanges type
  | .copyDescriptorsSimple descriptorCount dst src type =>
    records.copyDescriptorsSimple descriptorCount dst src type

/-- A run of calls. -/
def run (records : Records V) (calls : List (Call V)) :
    Option (Records V) := calls.foldlM step records

/-- The states of a device without records at first. -/
inductive Reachable : Records V → Prop where
  | create : Reachable fun _ => none
  | step {records records' : Records V} {call : Call V} (h : Reachable records)
      (hs : records.step call = some records') : Reachable records'

/-! ## Ranges -/

variable (records : Records V) (type : HeapType)

/-- The range lies in a heap of the type. -/
def Valid (range : Nat × Nat) : Prop :=
  range.2 ≠ 0 → ∃ record, records range.1 = some record ∧ record.place.heapType = type ∧
    record.place.heapIndex + range.2 ≤ record.place.heapCount

/-- The descriptors of the ranges. -/
def total (ranges : List (Nat × Nat)) : Nat := ranges.foldr (fun range sum => range.2 + sum) 0

/-- The handles of the ranges, in order. -/
def addresses (ranges : List (Nat × Nat)) : List Nat :=
  ranges.flatMap fun range => List.range' range.1 range.2

theorem length_addresses (ranges : List (Nat × Nat)) :
    (addresses ranges).length = total ranges := by
  induction ranges with
  | nil => rfl
  | cons range ranges ih =>
    rw [addresses, List.flatMap_cons, List.length_append, List.length_range']
    exact congrArg (range.2 + ·) ih

variable {records type}

/-- The handle is null or a record's. -/
def IsHandle (records : Records V) (handle : Nat) : Prop :=
  handle = 0 ∨ ∃ record, records handle = some record

/-- A range is found where its handle has a record of the type with room behind it. -/
theorem getDescriptorRecordRange_eq (hnull : records 0 = none) (type : HeapType) (handle : Nat)
    {count : Nat} (hcount : count ≠ 0) :
    records.getDescriptorRecordRange handle type count = some (some handle) ∧
        records.Valid type (handle, count) ∨
      ¬records.Valid type (handle, count) ∧
        (records.getDescriptorRecordRange handle type count = some none ∨
          records.getDescriptorRecordRange handle type count = none ∧
            ¬records.IsHandle handle) := by
  unfold getDescriptorRecordRange getDescriptorRecord Valid
  by_cases hzero : handle = 0
  · rw [if_pos hzero]
    refine .inr ⟨fun h => ?_, .inl rfl⟩
    obtain ⟨record, hsome, -⟩ := h hcount
    cases hsome.symm.trans (hzero ▸ hnull)
  rw [if_neg hzero]
  cases hrecord : records handle with
  | none =>
    refine .inr ⟨fun h => ?_, .inr ⟨rfl, ?_⟩⟩
    · obtain ⟨record, hsome, -⟩ := h hcount
      cases hsome
    · rintro (hnull | ⟨record, hsome⟩)
      · exact hzero hnull
      · cases hrecord.symm.trans hsome
  | some record =>
    dsimp only
    by_cases htype : record.place.heapType = type
    · rw [if_neg (not_not.mpr htype)]
      dsimp only
      by_cases hfits : record.place.heapIndex + count ≤ record.place.heapCount
      · rw [if_neg (by omega)]
        exact .inl ⟨rfl, fun _ => ⟨record, rfl, htype, hfits⟩⟩
      · rw [if_pos (by omega)]
        refine .inr ⟨fun h => ?_, .inl rfl⟩
        obtain ⟨record', hsome, -, hfits'⟩ := h hcount
        obtain rfl := Option.some.inj hsome
        exact hfits hfits'
    · rw [if_pos htype]
      refine .inr ⟨fun h => ?_, .inl rfl⟩
      obtain ⟨record', hsome, htype', -⟩ := h hcount
      obtain rfl := Option.some.inj hsome
      exact htype htype'

theorem valid_zero (handle : Nat) : records.Valid type (handle, 0) := fun h => absurd rfl h

theorem getDescriptorRecordRange_of_valid (hnull : records 0 = none) {handle count : Nat}
    (hcount : count ≠ 0) (h : records.Valid type (handle, count)) :
    records.getDescriptorRecordRange handle type count = some (some handle) := by
  obtain ⟨heq, -⟩ | ⟨hnot, -⟩ := getDescriptorRecordRange_eq hnull type handle hcount
  · exact heq
  · exact absurd h hnot

/-- A range that is found is valid. -/
theorem valid_of_getDescriptorRecordRange (hnull : records 0 = none) {handle count found : Nat}
    (hcount : count ≠ 0)
    (h : records.getDescriptorRecordRange handle type count = some (some found)) :
    found = handle ∧ records.Valid type (handle, count) := by
  obtain ⟨heq, hvalid⟩ | ⟨-, heq | ⟨heq, -⟩⟩ :=
    getDescriptorRecordRange_eq hnull type handle hcount
  · cases h.symm.trans heq
    exact ⟨rfl, hvalid⟩
  · cases h.symm.trans heq
  · cases h.symm.trans heq

/-- A lookup of a handle reads nothing else than a record. -/
theorem getDescriptorRecordRange_ne_none (hnull : records 0 = none) {handle count : Nat}
    (hcount : count ≠ 0) (h : records.IsHandle handle) :
    records.getDescriptorRecordRange handle type count ≠ none := by
  intro hnone
  obtain ⟨heq, -⟩ | ⟨-, heq | ⟨-, hnot⟩⟩ := getDescriptorRecordRange_eq hnull type handle hcount
  · cases hnone.symm.trans heq
  · cases hnone.symm.trans heq
  · exact hnot h

/-- All handles of the ranges that are looked up are null or a record's. -/
def AreHandles (records : Records V) (ranges : List (Nat × Nat)) : Prop :=
  ∀ range ∈ ranges, range.2 ≠ 0 → records.IsHandle range.1

theorem AreHandles.tail {range : Nat × Nat} {ranges : List (Nat × Nat)}
    (h : records.AreHandles (range :: ranges)) : records.AreHandles ranges :=
  fun range hmem => h range (List.mem_cons_of_mem _ hmem)

theorem total_cons (range : Nat × Nat) (ranges : List (Nat × Nat)) :
    total (range :: ranges) = range.2 + total ranges := rfl

theorem addresses_cons (range : Nat × Nat) (ranges : List (Nat × Nat)) :
    addresses (range :: ranges) = List.range' range.1 range.2 ++ addresses ranges :=
  List.flatMap_cons ..

/-- Valid destinations are found, handle by handle. -/
theorem destinations_of_valid (hnull : records 0 = none) {ranges : List (Nat × Nat)}
    {dstTotal : Nat} {found : List Nat} (h : ∀ range ∈ ranges, records.Valid type range)
    (hle : dstTotal + total ranges ≤ uintMax) :
    records.destinations type ranges dstTotal found = some (some (found ++ addresses ranges)) := by
  induction ranges generalizing dstTotal found with
  | nil => exact congrArg (some ∘ some) (List.append_nil found).symm
  | cons range ranges ih =>
    obtain ⟨handle, count⟩ := range
    have hrest : ∀ range ∈ ranges, records.Valid type range := fun range hmem =>
      h range (List.mem_cons_of_mem _ hmem)
    rw [total_cons] at hle
    rw [addresses_cons, destinations]
    split
    next hzero =>
      subst hzero
      exact ih hrest (by omega)
    next hcount =>
      rw [getDescriptorRecordRange_of_valid hnull hcount (h _ List.mem_cons_self)]
      dsimp only
      rw [if_neg (by omega), ih hrest (by omega), List.append_assoc]

/-- Destinations that are found are valid. -/
theorem valid_of_destinations (hnull : records 0 = none)
    (hbound : ∀ range, records.Valid type range → range.2 ≤ uintMax) {ranges : List (Nat × Nat)}
    {dstTotal : Nat} {found dsts : List Nat} (hle : dstTotal ≤ uintMax)
    (h : records.destinations type ranges dstTotal found = some (some dsts)) :
    (∀ range ∈ ranges, records.Valid type range) ∧ dstTotal + total ranges ≤ uintMax := by
  induction ranges generalizing dstTotal found with
  | nil => exact ⟨fun range hmem => absurd hmem List.not_mem_nil, hle⟩
  | cons range ranges ih =>
    obtain ⟨handle, count⟩ := range
    rw [total_cons, List.forall_mem_cons]
    rw [destinations] at h
    split at h
    next hzero =>
      subst hzero
      obtain ⟨hrest, htotal⟩ := ih hle h
      exact ⟨⟨valid_zero handle, hrest⟩, by omega⟩
    next hcount =>
      split at h
      next => cases h
      next => cases h
      next dst hrange =>
        obtain ⟨-, hvalid⟩ := valid_of_getDescriptorRecordRange hnull hcount hrange
        have hcountle : count ≤ uintMax := hbound _ hvalid
        split at h
        · cases h
        · obtain ⟨hrest, htotal⟩ := ih (by omega) h
          exact ⟨⟨hvalid, hrest⟩, by dsimp only; omega⟩

/-- The first loop stays within the records. -/
theorem destinations_ne_none (hnull : records 0 = none) {ranges : List (Nat × Nat)} {dstTotal : Nat}
    {found : List Nat} (h : records.AreHandles ranges) :
    records.destinations type ranges dstTotal found ≠ none := by
  induction ranges generalizing dstTotal found with
  | nil => exact Option.some_ne_none _
  | cons range ranges ih =>
    obtain ⟨handle, count⟩ := range
    rw [destinations]
    split
    next => exact ih h.tail
    next hcount =>
      have hhandle := h _ List.mem_cons_self hcount
      split
      next hnone => exact absurd hnone (getDescriptorRecordRange_ne_none hnull hcount hhandle)
      next => exact Option.some_ne_none _
      next =>
        split
        · exact Option.some_ne_none _
        · exact ih h.tail

/-- The ranges up to some one are valid, and enough. -/
def Suffices (records : Records V) (type : HeapType) (needed : Nat) (ranges : List (Nat × Nat)) :
    Prop :=
  ∃ k, (∀ range ∈ ranges.take k, records.Valid type range) ∧ needed ≤ total (ranges.take k)

/-- The sources suffice with a first range that is valid and long enough, or with the rest. -/
theorem suffices_cons {needed : Nat} {range : Nat × Nat} {ranges : List (Nat × Nat)}
    (hneeded : needed ≠ 0) : records.Suffices type needed (range :: ranges) ↔
      records.Valid type range ∧ (needed ≤ range.2 ∨
        records.Suffices type (needed - range.2) ranges) := by
  constructor
  · rintro ⟨k, hvalid, hle⟩
    cases k with
    | zero =>
      have hzero : needed ≤ 0 := hle
      omega
    | succ k =>
      rw [List.take_succ_cons] at hvalid hle
      rw [total_cons] at hle
      obtain ⟨hrange, hrest⟩ := List.forall_mem_cons.mp hvalid
      exact ⟨hrange, .inr ⟨k, hrest, by omega⟩⟩
  · rintro ⟨hrange, hle | ⟨k, hrest, hle⟩⟩
    · refine ⟨1, ?_, ?_⟩
      · rw [List.take_succ_cons, List.take_zero]
        exact List.forall_mem_cons.mpr ⟨hrange, fun range hmem => absurd hmem List.not_mem_nil⟩
      · rw [List.take_succ_cons, List.take_zero, total_cons]
        exact hle.trans (Nat.le_add_right _ _)
    · refine ⟨k + 1, ?_, ?_⟩
      · rw [List.take_succ_cons]
        exact List.forall_mem_cons.mpr ⟨hrange, hrest⟩
      · rw [List.take_succ_cons, total_cons]
        omega

/-- What the second loop finds, if it is enough. -/
theorem sources_eq (hnull : records 0 = none) (type : HeapType) {needed : Nat}
    {ranges : List (Nat × Nat)} (hhandles : records.AreHandles ranges) {copied : List Nat}
    (hlt : copied.length < needed) :
    records.Suffices type (needed - copied.length) ranges ∧
        records.sources type needed ranges copied =
          some (some ((copied ++ addresses ranges).take needed)) ∧
        needed ≤ (copied ++ addresses ranges).length ∨
      ¬records.Suffices type (needed - copied.length) ranges ∧
        ∃ found, records.sources type needed ranges copied = some found ∧
          ∀ srcs, found = some srcs → srcs.length ≠ needed := by
  induction ranges generalizing copied with
  | nil =>
    refine .inr ⟨?_, some copied, rfl, fun srcs h => ?_⟩
    · rintro ⟨k, -, hle⟩
      rw [List.take_nil] at hle
      have hzero : needed - copied.length ≤ 0 := hle
      omega
    · obtain rfl := Option.some.inj h
      exact hlt.ne
  | cons range ranges ih =>
    obtain ⟨handle, count⟩ := range
    rw [suffices_cons (by omega), addresses_cons, sources]
    split
    next hzero =>
      subst hzero
      have hnot : ¬needed - copied.length ≤ 0 := by omega
      rw [Nat.sub_zero]
      simp only [valid_zero, true_and, hnot, false_or]
      exact ih hhandles.tail hlt
    next hcount =>
      obtain ⟨hrange, hvalid⟩ | ⟨hnot, hrange | ⟨-, hforeign⟩⟩ :=
        getDescriptorRecordRange_eq hnull type handle hcount
      · rw [hrange]
        dsimp only
        simp only [hvalid, true_and]
        by_cases henough : needed - copied.length ≤ count
        · have htaken : (copied ++
              (List.range' handle count).take (needed - copied.length)).length =
              needed := by
            rw [List.length_append, List.length_take, List.length_range', min_eq_left henough]
            omega
          rw [if_pos htaken]
          refine .inl ⟨.inl henough, congrArg (some ∘ some) ?_, ?_⟩
          · rw [List.take_append, List.take_of_length_le hlt.le, List.take_append,
              List.length_range', Nat.sub_eq_zero_of_le henough, List.take_zero, List.append_nil]
          · rw [List.length_append, List.length_append, List.length_range']
            omega
        · have hall : (List.range' handle count).take (needed - copied.length) =
              List.range' handle count := by
            refine List.take_of_length_le ?_
            rw [List.length_range']
            omega
          have hlength : (copied ++ List.range' handle count).length = copied.length + count := by
            rw [List.length_append, List.length_range']
          rw [hall, if_neg (by omega), ← List.append_assoc, Nat.sub_sub, ← hlength]
          simp only [henough, false_or]
          exact ih hhandles.tail (by omega)
      · rw [hrange]
        refine .inr ⟨fun h => hnot h.1, none, rfl, fun srcs h => ?_⟩
        cases h
      · exact absurd (hhandles _ List.mem_cons_self hcount) hforeign

/-! ## Writing -/

/-- What a record is when the pairs are copied, each from what was there before all of them. -/
def written (records : Records V) (pairs : List (Nat × Nat)) (handle : Nat) :
    Option (DescriptorRecord V) :=
  match pairs.reverse.find? fun pair => pair.1 = handle with
  | none => records handle
  | some pair => (records handle).bind fun dst => (records pair.2).map (copyDescriptorRecord dst)

/-- Every handle has its record where it was. -/
def SamePlaces (records records' : Records V) : Prop :=
  ∀ handle, (records' handle).map (·.place) = (records handle).map (·.place)

/-- Copies of records that are there come to an end. -/
theorem foldlM_copyOne (copied records : Records V) {pairs : List (Nat × Nat)}
    (hsrc : ∀ pair ∈ pairs, ∃ src, copied pair.2 = some src)
    (hdst : ∀ pair ∈ pairs, ∃ dst, records pair.1 = some dst) :
    ∃ records', pairs.foldlM (copyOne copied) records = some records' ∧ ∀ handle,
      records' handle = match pairs.reverse.find? fun pair => pair.1 = handle with
        | none => records handle
        | some pair =>
          (records handle).bind fun dst => (copied pair.2).map (copyDescriptorRecord dst) := by
  induction pairs generalizing records with
  | nil => exact ⟨records, rfl, fun handle => rfl⟩
  | cons pair pairs ih =>
    obtain ⟨src, hsome⟩ := hsrc pair List.mem_cons_self
    obtain ⟨dst, hdstSome⟩ := hdst pair List.mem_cons_self
    have hone : copyOne copied records pair =
        some (records.setRecord pair.1 (copyDescriptorRecord dst src)) := by
      unfold copyOne
      rw [hsome, hdstSome]
    have hdst' : ∀ p ∈ pairs, ∃ dst',
        records.setRecord pair.1 (copyDescriptorRecord dst src) p.1 = some dst' := by
      intro p hp
      unfold setRecord
      split
      · exact ⟨_, rfl⟩
      · exact hdst p (List.mem_cons_of_mem _ hp)
    obtain ⟨records', hrun, heq⟩ := ih _ (fun p hp => hsrc p (List.mem_cons_of_mem _ hp)) hdst'
    refine ⟨records', ?_, fun handle => ?_⟩
    · rw [List.foldlM_cons, hone]
      exact hrun
    · rw [heq handle, List.reverse_cons, List.find?_append, setRecord]
      by_cases hhandle : handle = pair.1
      · -- a later pair with the same destination keeps the place of the record
        subst hhandle
        rw [if_pos rfl, hdstSome]
        cases hfind : pairs.reverse.find? fun p => p.1 = pair.1 with
        | some q => rfl
        | none =>
          simp only [Option.none_or, List.find?_cons_of_pos, decide_true, Option.bind_some, hsome,
            Option.map_some]
      · rw [if_neg hhandle]
        cases hfind : pairs.reverse.find? fun p => p.1 = handle with
        | some q => rfl
        | none =>
          have hne : ¬pair.1 = handle := fun heq => hhandle heq.symm
          simp only [Option.none_or, List.find?_cons, hne, decide_false, List.find?_nil]

theorem samePlaces_setRecord {handle : Nat} {old new : DescriptorRecord V}
    (hold : records handle = some old) (hplace : new.place = old.place) :
    SamePlaces records (records.setRecord handle new) := by
  intro other
  unfold setRecord
  split
  next heq => rw [heq, hold, Option.map_some, Option.map_some, hplace]
  next => rfl

theorem samePlaces_copyOne {copied records' : Records V} {pair : Nat × Nat}
    (h : copyOne copied records pair = some records') : SamePlaces records records' := by
  unfold copyOne at h
  split at h
  next src dst hsrc hdst =>
    obtain rfl := Option.some.inj h
    exact samePlaces_setRecord hdst rfl
  next => cases h

/-- Copies leave every record where it is. -/
theorem samePlaces_copyAll {copied records' : Records V} {pairs : List (Nat × Nat)}
    (h : pairs.foldlM (copyOne copied) records = some records') : SamePlaces records records' := by
  induction pairs generalizing records with
  | nil => exact Option.some.inj h ▸ fun _ => rfl
  | cons pair pairs ih =>
    obtain ⟨records₁, hone, hrest⟩ := Option.bind_eq_some_iff.mp h
    exact fun handle => (ih hrest handle).trans (samePlaces_copyOne hone handle)

/-! ## What a device keeps -/

/-- A record says where it is, and all records of its heap are there. -/
structure Inv (records : Records V) : Prop where
  null : records 0 = none
  place : ∀ handle record, records handle = some record →
    record.place.cpuHandle = handle ∧ record.place.heapIndex < record.place.heapCount ∧
      record.place.heapIndex ≤ handle ∧ record.place.heapCount ≤ uintMax
  heap : ∀ handle record, records handle = some record → ∀ i < record.place.heapCount,
    (records (handle - record.place.heapIndex + i)).map (·.place) = some { record.place with
      cpuHandle := handle - record.place.heapIndex + i, heapIndex := i }

theorem SamePlaces.exists {records' : Records V} (h : SamePlaces records records') {handle : Nat}
    {record : DescriptorRecord V} (hrecord : records' handle = some record) :
    ∃ old, records handle = some old ∧ old.place = record.place := by
  have hplace := h handle
  rw [hrecord] at hplace
  obtain ⟨old, hold, heq⟩ := Option.map_eq_some_iff.mp hplace.symm
  exact ⟨old, hold, heq⟩

/-- What leaves the records where they are keeps the invariant. -/
theorem Inv.of_samePlaces (hinv : Inv records) {records' : Records V}
    (h : SamePlaces records records') : Inv records' where
  null := by
    have hplace := h 0
    rw [hinv.null] at hplace
    exact Option.map_eq_none_iff.mp hplace
  place handle record hrecord := by
    obtain ⟨old, hold, heq⟩ := h.exists hrecord
    exact heq ▸ hinv.place handle old hold
  heap handle record hrecord i hi := by
    obtain ⟨old, hold, heq⟩ := h.exists hrecord
    rw [h, ← heq]
    exact hinv.heap handle old hold i (heq ▸ hi)

/-- A new heap has its records where nothing was. -/
theorem Inv.createDescriptorHeap (hinv : Inv records) {base count : Nat} {shaderVisible : Bool}
    {empty : V} (hbase : base ≠ 0) (hle : count ≤ uintMax)
    (hfresh : ∀ handle, base ≤ handle → handle < base + count → records handle = none) :
    Inv (records.createDescriptorHeap base count type shaderVisible empty) where
  null := by
    unfold Records.createDescriptorHeap
    rw [if_neg (by omega)]
    exact hinv.null
  place handle record hrecord := by
    unfold Records.createDescriptorHeap at hrecord
    split at hrecord
    next hin =>
      obtain rfl := Option.some.inj hrecord
      dsimp only
      omega
    next => exact hinv.place handle record hrecord
  heap handle record hrecord i hi := by
    unfold Records.createDescriptorHeap at hrecord ⊢
    split at hrecord
    next hin =>
      obtain rfl := Option.some.inj hrecord
      have hbase : handle - (handle - base) = base := by omega
      have hnew : base ≤ base + i ∧ base + i < base + count := by
        have : i < count := hi
        omega
      dsimp only
      rw [hbase, if_pos hnew, Nat.add_sub_cancel_left]
      rfl
    next =>
      have hold := hinv.heap handle record hrecord i hi
      rw [if_neg, hold]
      rintro ⟨hge, hlt⟩
      rw [hfresh _ hge hlt] at hold
      cases hold

/-- The records of a range that is valid. -/
theorem Inv.exists_of_valid (hinv : Inv records) {ranges : List (Nat × Nat)}
    (h : ∀ range ∈ ranges, records.Valid type range) :
    ∀ handle ∈ addresses ranges, ∃ record, records handle = some record := by
  intro handle hmem
  obtain ⟨⟨first, count⟩, hrange, hin⟩ := List.mem_flatMap.mp hmem
  obtain ⟨i, hi, rfl⟩ := List.mem_range'.mp hin
  obtain ⟨record, hrecord, -, hfits⟩ := h _ hrange (by dsimp only; omega)
  dsimp only at hi hfits hrecord ⊢
  have hbefore := (hinv.place first record hrecord).2.2.1
  have hplace := hinv.heap first record hrecord (record.place.heapIndex + i) (by omega)
  rw [show first - record.place.heapIndex + (record.place.heapIndex + i) = first + 1 * i by omega]
    at hplace
  obtain ⟨found, hfound, -⟩ := Option.map_eq_some_iff.mp hplace
  exact ⟨found, hfound⟩

theorem Inv.le_uintMax (hinv : Inv records) (range : Nat × Nat) (h : records.Valid type range) :
    range.2 ≤ uintMax := by
  by_cases hzero : range.2 = 0
  · exact hzero.le.trans (Nat.zero_le _)
  · obtain ⟨record, hrecord, -, hfits⟩ := h hzero
    have hcount := (hinv.place _ record hrecord).2.2.2
    omega

/-! ## What the copies do -/

/-- When `CopyDescriptors` copies. -/
structure Accepted (records : Records V) (type : HeapType)
    (dstRanges srcRanges : List (Nat × Nat)) :
    Prop where
  dst : ∀ range ∈ dstRanges, records.Valid type range
  total : total dstRanges ≤ uintMax
  src : records.Suffices type (Records.total dstRanges) srcRanges

/-- The sources that are needed come from valid ranges. -/
theorem take_addresses_of_suffices {needed : Nat} {ranges : List (Nat × Nat)}
    (h : records.Suffices type needed ranges) : ∃ k,
      (∀ range ∈ ranges.take k, records.Valid type range) ∧
      (addresses ranges).take needed = (addresses (ranges.take k)).take needed := by
  obtain ⟨k, hvalid, hle⟩ := h
  refine ⟨k, hvalid, ?_⟩
  have hsplit : addresses ranges = addresses (ranges.take k) ++ addresses (ranges.drop k) := by
    unfold addresses
    rw [← List.flatMap_append, List.take_append_drop]
  rw [hsplit]
  exact List.take_append_of_le_length (length_addresses _ ▸ hle)

theorem zip_take_length {α β : Type} (as : List α) (bs : List β) :
    as.zip (bs.take as.length) = as.zip bs := by
  have htake : (as.zip bs).take as.length = as.zip (bs.take as.length) := by
    unfold List.zip
    rw [List.take_zipWith, List.take_length]
  rw [← htake]
  refine List.take_of_length_le ?_
  rw [List.length_zip]
  exact Nat.min_le_left _ _

/-- The last loop finds all records. -/
theorem Inv.copyAll_spec (hinv : Inv records) {dstRanges srcRanges : List (Nat × Nat)}
    (h : records.Accepted type dstRanges srcRanges) :
    ∃ records', records.copyAll ((addresses dstRanges).zip (addresses srcRanges)) = some records' ∧
      SamePlaces records records' ∧ ∀ handle, records' handle =
        records.written ((addresses dstRanges).zip (addresses srcRanges)) handle := by
  have hsrc : ∀ pair ∈ (addresses dstRanges).zip (addresses srcRanges),
      ∃ src, records pair.2 = some src := by
    intro pair hpair
    rw [← zip_take_length, length_addresses] at hpair
    obtain ⟨k, hvalid, htake⟩ := take_addresses_of_suffices h.src
    rw [htake] at hpair
    exact hinv.exists_of_valid hvalid _ (List.mem_of_mem_take (List.of_mem_zip hpair).2)
  obtain ⟨records', hcopy, heq⟩ := foldlM_copyOne records records hsrc
    fun pair hpair => hinv.exists_of_valid h.dst _ (List.of_mem_zip hpair).1
  exact ⟨records', hcopy, samePlaces_copyAll hcopy, heq⟩

/-- The call copies the first sources to the destinations, or does nothing. -/
theorem copyDescriptors_spec (hinv : Inv records) (type : HeapType)
    {dstRanges srcRanges : List (Nat × Nat)} (hdstHandles : records.AreHandles dstRanges)
    (hsrcHandles : records.AreHandles srcRanges) :
    ∃ records', records.copyDescriptors dstRanges srcRanges type = some records' ∧
      SamePlaces records records' ∧
      (records.Accepted type dstRanges srcRanges → ∀ handle,
        records' handle =
          records.written ((addresses dstRanges).zip (addresses srcRanges)) handle) ∧
      (¬records.Accepted type dstRanges srcRanges → records' = records) := by
  have hsame : SamePlaces records records := fun _ => rfl
  unfold copyDescriptors
  by_cases hdst : (∀ range ∈ dstRanges, records.Valid type range) ∧ total dstRanges ≤ uintMax
  · rw [destinations_of_valid hinv.null hdst.1 (by rw [Nat.zero_add]; exact hdst.2)]
    dsimp only
    rw [List.nil_append]
    by_cases hnil : addresses dstRanges = []
    · rw [if_pos hnil]
      refine ⟨records, rfl, hsame, fun _ handle => ?_, fun _ => rfl⟩
      rw [hnil]
      rfl
    rw [if_neg hnil]
    have hpos : ([] : List Nat).length < (addresses dstRanges).length :=
      List.length_pos_of_ne_nil hnil
    have hsources := sources_eq hinv.null type hsrcHandles hpos
    rw [List.length_nil, Nat.sub_zero, List.nil_append] at hsources
    obtain ⟨hsuffices, hsources, henough⟩ | ⟨hnot, found, hsources, hshort⟩ := hsources
    · rw [length_addresses] at hsuffices
      have haccepted : records.Accepted type dstRanges srcRanges := ⟨hdst.1, hdst.2, hsuffices⟩
      rw [hsources]
      dsimp only
      rw [if_neg (not_not.mpr (List.length_take_of_le henough)), zip_take_length]
      obtain ⟨records', hcopy, hplaces, heq⟩ := hinv.copyAll_spec haccepted
      exact ⟨records', hcopy, hplaces, fun _ => heq, fun hnot => absurd haccepted hnot⟩
    · rw [length_addresses] at hnot
      have hnone : ¬records.Accepted type dstRanges srcRanges := fun h => hnot h.src
      rw [hsources]
      cases found with
      | none => exact ⟨records, rfl, hsame, fun h => absurd h hnone, fun _ => rfl⟩
      | some srcs =>
        dsimp only
        rw [if_pos (hshort srcs rfl)]
        exact ⟨records, rfl, hsame, fun h => absurd h hnone, fun _ => rfl⟩
  · have hnone : ¬records.Accepted type dstRanges srcRanges := fun h => hdst ⟨h.dst, h.total⟩
    split
    next hforeign => exact absurd hforeign (destinations_ne_none hinv.null hdstHandles)
    next => exact ⟨records, rfl, hsame, fun h => absurd h hnone, fun _ => rfl⟩
    next dsts hfound =>
      have hvalid := valid_of_destinations hinv.null hinv.le_uintMax (Nat.zero_le _) hfound
      rw [Nat.zero_add] at hvalid
      exact absurd hvalid hdst

/-- `CopyDescriptorsSimple` is a copy of one range to one. -/
theorem copyDescriptorsSimple_eq (hinv : Inv records) {descriptorCount dst src : Nat}
    (hsrc : records.IsHandle src) :
    records.copyDescriptorsSimple descriptorCount dst src type =
      records.copyDescriptors [(dst, descriptorCount)] [(src, descriptorCount)] type := by
  unfold copyDescriptorsSimple copyDescriptors
  rw [destinations]
  split
  · rfl
  next hcount =>
    have hfound : records.getDescriptorRecordRange src type descriptorCount ≠ none :=
      getDescriptorRecordRange_ne_none hinv.null hcount hsrc
    obtain ⟨hdst, hvalid⟩ | ⟨-, hdst | ⟨hdst, -⟩⟩ :=
      getDescriptorRecordRange_eq hinv.null type dst hcount
    · have hle : descriptorCount ≤ uintMax := hinv.le_uintMax _ hvalid
      rw [hdst]
      dsimp only
      rw [if_neg (by omega), destinations, List.nil_append]
      dsimp only
      have hlength : (List.range' dst descriptorCount).length = descriptorCount :=
        List.length_range'
      rw [if_neg (by rw [← List.length_eq_zero_iff, hlength]; exact hcount), hlength, sources,
        if_neg hcount]
      cases hsource : records.getDescriptorRecordRange src type descriptorCount with
      | none => exact absurd hsource hfound
      | some found =>
        cases found with
        | none => rfl
        | some found =>
          dsimp only
          have htake : [] ++ (List.range' found descriptorCount).take
              (descriptorCount - ([] : List Nat).length) = List.range' found descriptorCount := by
            rw [List.nil_append, List.length_nil, Nat.sub_zero]
            exact List.take_of_length_le List.length_range'.le
          rw [htake, if_pos List.length_range']
          dsimp only
          rw [if_neg (not_not.mpr List.length_range')]
    · rw [hdst]
      cases hsource : records.getDescriptorRecordRange src type descriptorCount with
      | none => exact absurd hsource hfound
      | some found => rfl
    · rw [hdst]

theorem getDescriptorRecordForWrite_eq (hnull : records 0 = none) {handle : Nat}
    {record : DescriptorRecord V}
    (h : records.getDescriptorRecordForWrite handle type = some (some record)) :
    records handle = some record := by
  unfold getDescriptorRecordForWrite at h
  split at h
  next => cases h
  next => cases h
  next dst hrange =>
    obtain ⟨rfl, -⟩ := valid_of_getDescriptorRecordRange hnull Nat.one_ne_zero hrange
    obtain ⟨found, hfound, heq⟩ := Option.map_eq_some_iff.mp h
    exact hfound.trans heq

theorem samePlaces_createView (hnull : records 0 = none) {handle : Nat} {view : V}
    {records' : Records V} (h : records.createView handle type view = some records') :
    SamePlaces records records' := by
  unfold createView at h
  split at h
  next => cases h
  next => exact Option.some.inj h ▸ fun _ => rfl
  next record hrecord =>
    obtain rfl := Option.some.inj h
    exact samePlaces_setRecord (getDescriptorRecordForWrite_eq hnull hrecord) rfl

theorem samePlaces_copyDescriptors {dstRanges srcRanges : List (Nat × Nat)} {records' : Records V}
    (h : records.copyDescriptors dstRanges srcRanges type = some records') :
    SamePlaces records records' := by
  have hsame : SamePlaces records records := fun _ => rfl
  unfold copyDescriptors at h
  split at h
  next => cases h
  next => exact Option.some.inj h ▸ hsame
  next =>
    split at h
    · exact Option.some.inj h ▸ hsame
    split at h
    next => cases h
    next => exact Option.some.inj h ▸ hsame
    next =>
      split at h
      · exact Option.some.inj h ▸ hsame
      · exact samePlaces_copyAll h

theorem samePlaces_copyDescriptorsSimple {descriptorCount dst src : Nat} {records' : Records V}
    (h : records.copyDescriptorsSimple descriptorCount dst src type = some records') :
    SamePlaces records records' := by
  have hsame : SamePlaces records records := fun _ => rfl
  unfold copyDescriptorsSimple at h
  split at h
  · exact Option.some.inj h ▸ hsame
  split at h
  next => exact samePlaces_copyAll h
  next => exact Option.some.inj h ▸ hsame
  next => cases h

/-- Every call keeps the invariant. -/
theorem Inv.step (hinv : Inv records) {call : Call V} {records' : Records V}
    (hs : records.step call = some records') : Inv records' := by
  cases call with
  | createDescriptorHeap base count type shaderVisible empty =>
    rw [Records.step] at hs
    split at hs
    next h =>
      obtain ⟨hbase, -, hle, -, hfresh⟩ := h
      obtain rfl := Option.some.inj hs
      refine hinv.createDescriptorHeap hbase hle fun handle hge hlt => ?_
      have hmem : handle ∈ List.range' base count :=
        List.mem_range'.mpr ⟨handle - base, by omega, by omega⟩
      exact Option.isNone_iff_eq_none.mp (List.all_eq_true.mp hfresh handle hmem)
    next => cases hs
  | createView handle type view =>
    exact hinv.of_samePlaces (samePlaces_createView hinv.null hs)
  | copyDescriptors dstRanges srcRanges type =>
    exact hinv.of_samePlaces (samePlaces_copyDescriptors hs)
  | copyDescriptorsSimple descriptorCount dst src type =>
    exact hinv.of_samePlaces (samePlaces_copyDescriptorsSimple hs)

/-- The invariant holds in every state of every run. -/
theorem Reachable.inv (h : Reachable records) : Inv records := by
  induction h with
  | create =>
    exact ⟨rfl, fun _ _ hrecord => (Option.some_ne_none _ hrecord.symm).elim,
      fun _ _ hrecord => (Option.some_ne_none _ hrecord.symm).elim⟩
  | step _ hs ih => exact ih.step hs

theorem Reachable.run {calls : List (Call V)} {records' : Records V} (h : Reachable records)
    (hrun : records.run calls = some records') : Reachable records' := by
  induction calls generalizing records with
  | nil => exact Option.some.inj hrun ▸ h
  | cons call calls ih =>
    obtain ⟨records₁, hs, hrest⟩ := Option.bind_eq_some_iff.mp hrun
    exact ih (h.step hs) hrest

/-- **`CopyDescriptors` copies all or nothing.** In every state of a device, with handles that are
null or a record's, it stays within the records of the heaps and moves none of them; it copies if
and only if the destinations are valid, no more than a `UINT` counts, and the sources up to some
range are valid and enough; and then every record is what the last pair for it gives it, read before
any was written. One range to one is `CopyDescriptorsSimple`. -/
theorem copyDescriptors_exact (h : Reachable records) {dstRanges srcRanges : List (Nat × Nat)}
    (hdst : records.AreHandles dstRanges) (hsrc : records.AreHandles srcRanges) :
    (∃ records', records.copyDescriptors dstRanges srcRanges type = some records' ∧
      SamePlaces records records' ∧
      (records.Accepted type dstRanges srcRanges → ∀ handle,
        records' handle =
          records.written ((addresses dstRanges).zip (addresses srcRanges)) handle) ∧
      (¬records.Accepted type dstRanges srcRanges → records' = records)) ∧
    ∀ descriptorCount dst src, records.IsHandle src →
      records.copyDescriptorsSimple descriptorCount dst src type =
        records.copyDescriptors [(dst, descriptorCount)] [(src, descriptorCount)] type :=
  ⟨copyDescriptors_spec h.inv type hdst hsrc, fun _ _ _ hhandle =>
    copyDescriptorsSimple_eq h.inv hhandle⟩

/-- Two heaps, and a view in the first. -/
def twoHeaps : List (Call Nat) :=
  [.createDescriptorHeap 16 4 .cbvSrvUav false 0, .createDescriptorHeap 32 4 .cbvSrvUav true 0,
    .createView 17 .cbvSrvUav 7, .createView 18 .cbvSrvUav 8]

theorem copyDescriptors_exact_twoHeaps : ∃ records : Records Nat,
    (records.copyDescriptors [(32, 1), (34, 1)] [(17, 2)] .cbvSrvUav).map
      (fun copied => (copied 34).map (·.view)) = some (some 8) ∧
    ((∃ records', records.copyDescriptors [(32, 1), (34, 1)] [(17, 2)] .cbvSrvUav = some records' ∧
      SamePlaces records records' ∧
      (records.Accepted .cbvSrvUav [(32, 1), (34, 1)] [(17, 2)] → ∀ handle,
        records' handle = records.written
          ((addresses [(32, 1), (34, 1)]).zip (addresses [(17, 2)])) handle) ∧
      (¬records.Accepted .cbvSrvUav [(32, 1), (34, 1)] [(17, 2)] → records' = records)) ∧
    ∀ descriptorCount dst src, records.IsHandle src →
      records.copyDescriptorsSimple descriptorCount dst src .cbvSrvUav =
        records.copyDescriptors [(dst, descriptorCount)] [(src, descriptorCount)] .cbvSrvUav) := by
  have hrun : Records.run (fun _ => none) twoHeaps = some _ := rfl
  refine ⟨_, rfl, copyDescriptors_exact (Reachable.create.run hrun) ?_ ?_⟩
  · rintro range hmem -
    simp only [List.mem_cons, List.not_mem_nil, or_false] at hmem
    obtain rfl | rfl := hmem <;> exact .inr ⟨_, rfl⟩
  · rintro range hmem -
    obtain rfl := List.mem_singleton.mp hmem
    exact .inr ⟨_, rfl⟩

end Records

end Descriptors

end Dxmt
