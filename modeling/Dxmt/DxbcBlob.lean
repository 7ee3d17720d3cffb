import Dxmt.ByteWords
import Mathlib.Data.List.Basic

/-!
# Validation of DXBC bytecode: `FindDxbcShaderBlob`, `ValidateDxbcShaderStage`

`FindDxbcShaderBlob` and `ValidateDxbcShaderStage` with what they do on the way: the words that they
read, the differences that their checks are made of, and the chunks that they look at. Sizes and
offsets of the container are 32-bit words. A null pointer is rejected before anything is read and is
left out.

Result: `inBounds_iff`. All is well unless the header says a size that is smaller than the header.

Source: `src/d3d12/d3d12_pipeline.cpp:293-374`.
-/

namespace Dxmt

namespace DxbcBlob

/-- `PipelineShaderStage`. -/
inductive PipelineShaderStage
  | pixel
  | vertex
  | geometry
  | hull
  | domain
  | compute
  deriving DecidableEq

/-- `DXBC`. -/
def dxbcMagic : Word := 0x43425844

/-- `SHDR`. -/
def shdrFourCC : Word := 0x52444853

/-- `SHEX`. -/
def shexFourCC : Word := 0x58454853

/-- The chunk's data: where it begins and its length. -/
structure Blob where
  offset : Nat
  size : Word
  deriving DecidableEq

/-- What the search does that could go wrong. -/
inductive Event
  /-- Four bytes from the offset on are read. -/
  | read (offset : Nat)
  | subtract (a b : Word)
  | chunk (i : Nat)
  deriving DecidableEq

/-- The loop of `FindDxbcShaderBlob` from chunk `i` on, with so many chunks left. -/
def scanChunks (data : List Byte) (containerSize : Word) : (left i : Nat) → Option Blob × List Event
  | 0, _ => (none, [])
  | left + 1, i =>
    let entry := 32 + (i * 4) % 2 ^ 32
    let offset := readU32 data entry
    let looked := [Event.chunk i, .read entry]
    if containerSize < offset then (none, looked)
    else
      let looked := looked ++ [.subtract containerSize offset]
      if containerSize - offset < 8 then (none, looked)
      else
        let start := offset.toNat
        let fourcc := readU32 data start
        let length := readU32 data (start + 4)
        let looked := looked ++ [.read start, .read (start + 4), .subtract containerSize offset,
          .subtract (containerSize - offset) 8]
        if containerSize - offset - 8 < length then (none, looked)
        else if fourcc = shdrFourCC ∨ fourcc = shexFourCC then (some ⟨start + 8, length⟩, looked)
        else
          let rest := scanChunks data containerSize left (i + 1)
          (rest.1, looked ++ rest.2)

/-- The size that the header gives. -/
def containerSize (data : List Byte) : Word := readU32 data 24

/-- The number of chunks that the header gives. -/
def chunkCount (data : List Byte) : Word := readU32 data 28

/-- `FindDxbcShaderBlob`, with what it reads. -/
def findDxbcShaderBlob (data : List Byte) : Option Blob × List Event :=
  if data.length < 32 then (none, [])
  else if readU32 data 0 ≠ dxbcMagic then (none, [.read 0])
  else
    let size := containerSize data
    let count := chunkCount data
    let looked := [Event.read 0, .read 24, .read 28]
    if data.length < size.toNat then (none, looked)
    else
      let looked := looked ++ [.subtract size 32]
      if (size - 32) / 4 < count then (none, looked)
      else
        let scan := scanChunks data size count.toNat 0
        (scan.1, looked ++ scan.2)

/-- `ExpectedDxbcShaderType`. -/
def expectedDxbcShaderType : PipelineShaderStage → Word
  | .pixel => 0
  | .vertex => 1
  | .geometry => 2
  | .hull => 3
  | .domain => 4
  | .compute => 5

/-- Whether the stage is accepted, and what was done. -/
def validateDxbcShaderStage (stage : PipelineShaderStage) (data : List Byte) : Bool × List Event :=
  match findDxbcShaderBlob data with
  | (none, looked) => (false, looked)
  | (some blob, looked) =>
    if blob.size < 4 then (false, looked)
    else (readU32 data blob.offset >>> 16 = expectedDxbcShaderType stage, looked ++
    [.read blob.offset])

/-! ## What is in bounds -/

/-- The event is one that stays inside the bytes. -/
def Event.InBounds (size : Nat) : Event → Prop
  | .read offset => offset + 4 ≤ size
  | .subtract a b => b ≤ a
  | .chunk _ => True

/-- The chunks that were looked at. -/
def chunks (looked : List Event) : List Nat :=
  looked.filterMap fun
    | .chunk i => some i
    | _ => none

/-- Nothing outside the bytecode is read, no difference wraps around, at most as many chunks are
looked at as there is room for in the table, and a blob that is found is inside the container and
that inside the bytecode. -/
structure InBounds (stage : PipelineShaderStage) (data : List Byte) : Prop where
  found : ∀ event ∈ (findDxbcShaderBlob data).2, event.InBounds data.length
  validated : ∀ event ∈ (validateDxbcShaderStage stage data).2, event.InBounds data.length
  chunks_le : (chunks (findDxbcShaderBlob data).2).length ≤ (data.length - 32) / 4
  blob : ∀ blob, (findDxbcShaderBlob data).1 = some blob →
    blob.offset + blob.size.toNat ≤ (containerSize data).toNat ∧ (containerSize data).toNat ≤
      data.length

/-- The size in a header that is read is at least that of the header. -/
def HeaderFits (data : List Byte) : Prop :=
  32 ≤ data.length → readU32 data 0 = dxbcMagic → (containerSize data).toNat ≤ data.length →
    32 ≤ (containerSize data).toNat

instance (data : List Byte) : Decidable (HeaderFits data) := by
  unfold HeaderFits
  infer_instance

variable {data : List Byte} {size : Word}

/-! ## The loop -/

@[simp] theorem chunks_append (xs ys : List Event) : chunks (xs ++ ys) = chunks xs ++ chunks ys :=
  List.filterMap_append

/-- What holds of the loop when its table is inside the container and that inside the bytecode. -/
theorem scanChunks_spec (left i : Nat) (hsize : size.toNat ≤ data.length)
    (htable : 32 + 4 * (i + left) ≤ size.toNat) :
    (∀ event ∈ (scanChunks data size left i).2, event.InBounds data.length) ∧
      (chunks (scanChunks data size left i).2).length ≤ left ∧
      ∀ blob, (scanChunks data size left i).1 = some blob → blob.offset + blob.size.toNat ≤
      size.toNat := by
  induction left generalizing i with
  | zero => simp [scanChunks, chunks]
  | succ left ih =>
    have hlt := size.isLt
    have hentry : 32 + (i * 4) % 2 ^ 32 = 32 + 4 * i := by omega
    simp only [scanChunks, hentry]
    have hread : 32 + 4 * i + 4 ≤ data.length := by omega
    generalize readU32 data (32 + 4 * i) = offset
    by_cases hoffset : size < offset
    · simp only [hoffset, if_true]
      simp [chunks, Event.InBounds, hread]
    · have hle : offset ≤ size := BitVec.not_lt.mp hoffset
      have hdiff : (size - offset).toNat = size.toNat - offset.toNat := BitVec.toNat_sub_of_le hle
      have hoffsetLe := BitVec.le_def.mp hle
      by_cases hroom : size - offset < 8
      · simp only [hoffset, hroom, if_true, if_false]
        simp [chunks, Event.InBounds, hread, hle]
      · have hroomLe : 8 ≤ size - offset := BitVec.not_lt.mp hroom
        have hrest : (size - offset - 8).toNat = size.toNat - offset.toNat - 8 := by
          rw [BitVec.toNat_sub_of_le hroomLe, hdiff]
          rfl
        have hheader : offset.toNat + 8 ≤ size.toNat := by
          have := BitVec.le_def.mp hroomLe
          rw [hdiff] at this
          have h8 : (8 : Word).toNat = 8 := rfl
          omega
        have hlooked : ∀ event ∈ [Event.chunk i, .read (32 + 4 * i), .subtract size offset,
            .read offset.toNat, .read (offset.toNat + 4), .subtract size offset,
              .subtract (size - offset) 8],
            event.InBounds data.length := by
          simp only [List.forall_mem_cons, Event.InBounds]
          refine ⟨trivial, hread, hle, by omega, by omega, hle, hroomLe, ?_⟩
          simp
        simp only [hoffset, hroom, if_false]
        generalize readU32 data (offset.toNat + 4) = length
        by_cases hlength : size - offset - 8 < length
        · simp only [hlength, if_true]
          exact ⟨hlooked, by simp [chunks], by simp⟩
        · have hlengthLe := BitVec.le_def.mp (BitVec.not_lt.mp hlength)
          rw [hrest] at hlengthLe
          simp only [hlength, if_false]
          split
          · refine ⟨hlooked, by simp [chunks], ?_⟩
            intro blob hblob
            obtain rfl := Option.some.inj hblob
            change offset.toNat + 8 + length.toNat ≤ size.toNat
            omega
          · obtain ⟨hevents, hcount, hblob⟩ := ih (i + 1) (by omega)
            refine ⟨?_, ?_, hblob⟩
            · intro event hevent
              rcases List.mem_append.mp hevent with hevent | hevent
              · exact hlooked event hevent
              · exact hevents event hevent
            · rw [chunks_append, List.length_append, Nat.add_comm left]
              exact Nat.add_le_add (Nat.le_refl 1) hcount

/-! ## The header -/

/-- The loop runs in a header that fits. -/
theorem findDxbcShaderBlob_spec (h : HeaderFits data) :
    (∀ event ∈ (findDxbcShaderBlob data).2, event.InBounds data.length) ∧
      (chunks (findDxbcShaderBlob data).2).length ≤ (data.length - 32) / 4 ∧
      ∀ blob, (findDxbcShaderBlob data).1 = some blob →
        blob.offset + blob.size.toNat ≤ (containerSize data).toNat ∧
          (containerSize data).toNat ≤ data.length := by
  by_cases hlength : data.length < 32
  · simp [findDxbcShaderBlob, hlength, chunks]
  have hstart : Event.InBounds data.length (.read 0) := by
    simp only [Event.InBounds]
    omega
  by_cases hmagic : readU32 data 0 = dxbcMagic
  · have hlooked : ∀ event ∈ [Event.read 0, .read 24, .read 28], event.InBounds data.length := by
      simp only [List.forall_mem_cons, Event.InBounds]
      refine ⟨by omega, by omega, by omega, ?_⟩
      simp
    by_cases hsize : data.length < (containerSize data).toNat
    · simp only [findDxbcShaderBlob, hlength, hmagic, hsize, if_false, if_true, ne_eq,
        not_true_eq_false]
      exact ⟨hlooked, by simp [chunks], by simp⟩
    · have hfits := h (by omega) hmagic (by omega)
      have h32 : (32 : Word) ≤ containerSize data := BitVec.le_def.mpr hfits
      have hlooked' : ∀ event ∈ [Event.read 0, .read 24, .read 28] ++
          [.subtract (containerSize data) 32],
          event.InBounds data.length := by
        intro event hevent
        rcases List.mem_append.mp hevent with hevent | hevent
        · exact hlooked event hevent
        · obtain rfl := List.mem_singleton.mp hevent
          exact h32
      simp only [findDxbcShaderBlob, hlength, hmagic, hsize, if_false, ne_eq, not_true_eq_false]
      by_cases hcount : (containerSize data - 32) / 4 < chunkCount data
      · simp only [hcount, if_true]
        exact ⟨hlooked', by simp [chunks], by simp⟩
      · simp only [hcount, if_false]
        have hcountLe := BitVec.le_def.mp (BitVec.not_lt.mp hcount)
        have hroom : ((containerSize data - 32) / 4).toNat =
            ((containerSize data).toNat - 32) / 4 := by
          rw [BitVec.toNat_udiv, BitVec.toNat_sub_of_le h32]
          rfl
        obtain ⟨hevents, hchunks, hblob⟩ :=
          scanChunks_spec (chunkCount data).toNat 0 (Nat.le_of_not_lt hsize) (by omega)
        refine ⟨?_, ?_, fun blob hfound => ⟨hblob blob hfound, Nat.le_of_not_lt hsize⟩⟩
        · intro event hevent
          rcases List.mem_append.mp hevent with hevent | hevent
          · exact hlooked' event hevent
          · exact hevents event hevent
        · rw [chunks_append, List.length_append]
          have hnone : (chunks ([Event.read 0, .read 24, .read 28] ++
            [.subtract (containerSize data) 32])).length = 0 := rfl
          omega
  · simp only [findDxbcShaderBlob, hlength, hmagic, if_false, if_true, ne_eq, not_false_eq_true]
    exact ⟨by simpa using hstart, by simp [chunks], by simp⟩

/-- The type of the shader is read from a blob that was found. -/
theorem validate_inBounds (h : HeaderFits data) (stage : PipelineShaderStage) :
    ∀ event ∈ (validateDxbcShaderStage stage data).2, event.InBounds data.length := by
  obtain ⟨hevents, -, hblob⟩ := findDxbcShaderBlob_spec h
  unfold validateDxbcShaderStage
  split
  next looked heq => rwa [heq] at hevents
  next blob looked heq =>
    rw [heq] at hevents hblob
    split
    next => exact hevents
    next hsize =>
      intro event hevent
      rcases List.mem_append.mp hevent with hevent | hevent
      · exact hevents event hevent
      · obtain rfl := List.mem_singleton.mp hevent
        have h4 := BitVec.le_def.mp (BitVec.not_lt.mp hsize)
        have hend := hblob blob rfl
        have h4' : (4 : Word).toNat = 4 := rfl
        simp only [Event.InBounds]
        omega

/-- In a header that does not fit the first difference wraps around. -/
theorem mem_of_not_headerFits (h : ¬HeaderFits data) :
    Event.subtract (containerSize data) 32 ∈ (findDxbcShaderBlob data).2 ∧
      (containerSize data).toNat < 32 := by
  simp only [HeaderFits, not_forall, Nat.not_le] at h
  obtain ⟨hlength, hmagic, hsize, hsmall⟩ := h
  refine ⟨?_, hsmall⟩
  simp only [findDxbcShaderBlob, Nat.not_lt.mpr hlength, hmagic, Nat.not_lt.mpr hsize, if_false,
    ne_eq, not_true_eq_false]
  split <;> simp

/-- Everything is in bounds exactly when a container size that is accepted covers the header. -/
theorem inBounds_iff (stage : PipelineShaderStage) (data : List Byte) :
    InBounds stage data ↔ HeaderFits data := by
  constructor
  · intro h
    by_contra hfits
    obtain ⟨hmem, hsmall⟩ := mem_of_not_headerFits hfits
    have hle := BitVec.le_def.mp (h.found _ hmem)
    have h32 : (32 : Word).toNat = 32 := rfl
    omega
  · intro h
    obtain ⟨hevents, hchunks, hblob⟩ := findDxbcShaderBlob_spec h
    exact ⟨hevents, validate_inBounds h stage, hchunks, hblob⟩

/-- 32 bytes: the magic, a container size of 16 and one chunk, whose offset would be after the end.
-/
def shortContainer : List Byte :=
  encodeWords [dxbcMagic, 0, 0, 0, 0, 0, 16, 1]

theorem shortContainer_read :
    ¬InBounds .vertex shortContainer ∧ Event.read 32 ∈ (findDxbcShaderBlob shortContainer).2 ∧
      shortContainer.length = 32 := by
  refine ⟨?_, by decide, by decide⟩
  intro h
  have hread := h.found (.read 32) (by decide)
  have hlength : shortContainer.length = 32 := by decide
  simp only [Event.InBounds, hlength] at hread
  omega

end DxbcBlob

end Dxmt
