import Dxmt.RuntimeReferences

/-!
# Validation of runtime data

`ValidateRuntimeDataInfo` looks up the shader info of a function again. The parser has looked it up,
but the info of a node is in a table of its own, where the validator does not look.

* What is accepted is closed under its references, and no shader info is missing, exactly for the
  blobs in which no function is a node with shader info (`sound_iff`).
-/

namespace Dxmt

namespace RuntimeData

open ReferenceTables

/-! ## Diagnostics -/

/-- `DxilValidationSeverity`. -/
inductive DxilValidationSeverity where
  | info
  | warning
  | error

/-- `DxilValidationCategory`. -/
inductive DxilValidationCategory where
  | container
  | program
  | metadata
  | runtimeData
  | pipelineStateValidation
  | instruction
  | reflection

/-- A diagnostic of runtime data is not about an instruction. -/
structure DxilValidationDiagnostic where
  severity : DxilValidationSeverity := .error
  category : DxilValidationCategory := .program
  code : String
  message : Text

/-- The diagnostics so far, and how many there are of each severity. -/
structure DxilValidationInfo where
  errorCount : Word := 0
  warningCount : Word := 0
  infoCount : Word := 0
  diagnostics : List DxilValidationDiagnostic := []

/-- A string literal. -/
def text (literal : String) : Text :=
  literal.toList.map fun c => BitVec.ofNat 8 c.toNat

namespace DxilValidationInfo

/-- `AddDiagnostic`: appends it and counts it. -/
def addDiagnostic (info : DxilValidationInfo) (severity : DxilValidationSeverity)
    (category : DxilValidationCategory) (code : String) (message : Text) : DxilValidationInfo :=
  let diagnostic : DxilValidationDiagnostic :=
    { severity := severity, category := category, code := code, message := message }
  let diagnostics := info.diagnostics ++ [diagnostic]
  match severity with
  | .info => { info with infoCount := info.infoCount + 1, diagnostics := diagnostics }
  | .warning => { info with warningCount := info.warningCount + 1, diagnostics := diagnostics }
  | .error => { info with errorCount := info.errorCount + 1, diagnostics := diagnostics }

/-- `AddError`. -/
def addError (info : DxilValidationInfo) (category : DxilValidationCategory) (code : String)
    (message : Text) :
    DxilValidationInfo :=
  info.addDiagnostic .error category code message

/-- `AddWarning`. -/
def addWarning (info : DxilValidationInfo) (category : DxilValidationCategory) (code : String)
    (message : Text) :
    DxilValidationInfo :=
  info.addDiagnostic .warning category code message

end DxilValidationInfo

/-- `FormatBinding`. -/
def formatBinding (space lowerBound upperBound : Word) : Text :=
  text "space" ++ text (toString space.toNat) ++ text " [" ++ text (toString lowerBound.toNat) ++
    text ", " ++
    (if upperBound = 0xffffffff then text "unbounded" else text (toString upperBound.toNat)) ++
    text "]"

/-! ## The validator -/

/-- The code of a function without its shader record. -/
def missingRdatShaderInfo : String := "missing-rdat-shader-info"

/-- The shader info of a function is looked up and not found. -/
def RdatFunctionInfo.missesShaderInfo (function : RdatFunctionInfo)
    (runtimeData : RuntimeDataInfo) : Bool :=
  function.hasShaderInfo &&
    (runtimeData.findShaderInfo function.shaderInfoTableType function.shaderInfoIndex).isNone

/-- The checks of a function. -/
def validateFunction (runtimeData : RuntimeDataInfo) (info : DxilValidationInfo)
    (function : RdatFunctionInfo) :
    DxilValidationInfo :=
  let info :=
    if function.shaderKind.toNat > 15 then
      info.addError .runtimeData "invalid-rdat-shader-kind"
        (text "RDAT function '" ++ function.name ++ text "' has an unknown shader kind")
    else info
  let info :=
    if function.missesShaderInfo runtimeData then
      info.addError .runtimeData missingRdatShaderInfo
        (text "RDAT function '" ++ function.name ++
          text "' references a missing shader info record")
    else info
  if function.minimumExpectedWaveLaneCount ≠ 0 ∧ function.maximumExpectedWaveLaneCount ≠ 0 ∧
      function.maximumExpectedWaveLaneCount.toNat < function.minimumExpectedWaveLaneCount.toNat then
    info.addError .runtimeData "invalid-wave-lane-range"
      (text "RDAT function '" ++ function.name ++ text "' has an invalid expected wave lane range")
  else info

/-- The check of a resource's range. -/
def validateRange (info : DxilValidationInfo) (resource : RdatResourceInfo) : DxilValidationInfo :=
  if resource.upperBound.toNat < resource.lowerBound.toNat ∧ resource.upperBound ≠ 0xffffffff then
    info.addError .runtimeData "invalid-rdat-resource-range"
      (text "RDAT resource '" ++ resource.name ++ text "' has an invalid binding range")
  else info

/-- The check of two resources of one class and space. -/
def validateOverlap (lhs : RdatResourceInfo) (info : DxilValidationInfo) (rhs : RdatResourceInfo) :
    DxilValidationInfo :=
  if lhs.resourceClass ≠ rhs.resourceClass ∨ lhs.space ≠ rhs.space then info
  else if lhs.lowerBound.toNat ≤ rhs.upperBound.toNat ∧ rhs.lowerBound.toNat ≤
    lhs.upperBound.toNat then
    info.addWarning .runtimeData "overlapping-rdat-resources"
      (text "RDAT resources '" ++ lhs.name ++ text "' and '" ++ rhs.name ++ text "' overlap at " ++
        formatBinding lhs.space
          (if lhs.lowerBound.toNat < rhs.lowerBound.toNat then rhs.lowerBound else lhs.lowerBound)
          (if rhs.upperBound.toNat < lhs.upperBound.toNat then rhs.upperBound else lhs.upperBound))
  else info

/-- Every resource, and its overlaps with those behind it. -/
def validateResources (info : DxilValidationInfo) : List RdatResourceInfo → DxilValidationInfo
  | [] => info
  | lhs :: resources =>
    validateResources (resources.foldl (validateOverlap lhs) (validateRange info lhs)) resources

/-- `ValidateRuntimeDataInfo`. -/
def validateRuntimeDataInfo (runtimeData : Option RuntimeDataInfo) (info : DxilValidationInfo) :
    DxilValidationInfo :=
  match runtimeData with
  | none => info
  | some runtimeData =>
    let info :=
      if runtimeData.functions = [] then
        info.addWarning .runtimeData "missing-rdat-functions"
          (text "RDAT is present but has no function records")
      else info
    let info := runtimeData.functions.foldl (validateFunction runtimeData) info
    validateResources info runtimeData.resources

/-! ## What is reported -/

/-- There is a diagnostic with this code. -/
def DxilValidationInfo.Reports (info : DxilValidationInfo) (code : String) : Prop :=
  ∃ diagnostic ∈ info.diagnostics, diagnostic.code = code

section Reports

variable {info : DxilValidationInfo} {code : String}

theorem diagnostics_addDiagnostic (severity : DxilValidationSeverity)
    (category : DxilValidationCategory) (added : String) (message : Text) :
    (info.addDiagnostic severity category added message).diagnostics =
      info.diagnostics ++
        [{ severity := severity, category := category, code := added, message := message }] := by
  cases severity <;> rfl

theorem reports_addDiagnostic (severity : DxilValidationSeverity)
    (category : DxilValidationCategory) (added : String) (message : Text) :
    (info.addDiagnostic severity category added message).Reports code ↔
      info.Reports code ∨ added = code := by
  unfold DxilValidationInfo.Reports
  rw [diagnostics_addDiagnostic]
  constructor
  · rintro ⟨diagnostic, hmem, hcode⟩
    rcases List.mem_append.mp hmem with hmem | hmem
    · exact Or.inl ⟨diagnostic, hmem, hcode⟩
    · cases List.mem_singleton.mp hmem
      exact Or.inr hcode
  · rintro (⟨diagnostic, hmem, hcode⟩ | hcode)
    · exact ⟨diagnostic, List.mem_append_left _ hmem, hcode⟩
    · exact ⟨_, List.mem_append_right _ List.mem_cons_self, hcode⟩

/-- A diagnostic with another code, added or not. -/
theorem reports_addOther {added : String} (hne : added ≠ code) (severity : DxilValidationSeverity)
    (category : DxilValidationCategory) (message : Text) (condition : Prop) [Decidable condition] :
    (if condition then info.addDiagnostic severity category added message else info).Reports code ↔
      info.Reports code := by
  split
  · rw [reports_addDiagnostic]
    exact or_iff_left hne
  · rfl

theorem reports_validateFunction (runtimeData : RuntimeDataInfo) (function : RdatFunctionInfo) :
    (validateFunction runtimeData info function).Reports missingRdatShaderInfo ↔
      info.Reports missingRdatShaderInfo ∨ function.missesShaderInfo runtimeData = true := by
  unfold validateFunction
  refine (reports_addOther (by decide) _ _ _ _).trans ?_
  split
  · rename_i hmisses
    refine (reports_addDiagnostic _ _ _ _).trans ?_
    rw [hmisses]
    exact ⟨fun _ => Or.inr rfl, fun _ => Or.inr rfl⟩
  · rename_i hfound
    refine (reports_addOther (by decide) _ _ _ _).trans ?_
    exact (or_iff_left hfound).symm

theorem reports_validateFunctions (runtimeData : RuntimeDataInfo)
    (functions : List RdatFunctionInfo) :
    (functions.foldl (validateFunction runtimeData) info).Reports missingRdatShaderInfo ↔
      info.Reports missingRdatShaderInfo ∨
        ∃ function ∈ functions, function.missesShaderInfo runtimeData = true := by
  induction functions generalizing info with
  | nil =>
    refine (or_iff_left ?_).symm
    rintro ⟨function, hmem, -⟩
    exact List.not_mem_nil hmem
  | cons function functions ih =>
    rw [List.foldl_cons, ih, reports_validateFunction, or_assoc, List.exists_mem_cons_iff]

theorem reports_validateOverlap (hne : "overlapping-rdat-resources" ≠ code)
    (lhs rhs : RdatResourceInfo) :
    (validateOverlap lhs info rhs).Reports code ↔ info.Reports code := by
  unfold validateOverlap
  split
  · rfl
  · exact reports_addOther hne _ _ _ _

theorem reports_validateOverlaps (hne : "overlapping-rdat-resources" ≠ code)
    (lhs : RdatResourceInfo) (resources : List RdatResourceInfo) :
    (resources.foldl (validateOverlap lhs) info).Reports code ↔ info.Reports code := by
  induction resources generalizing info with
  | nil => rfl
  | cons rhs resources ih => rw [List.foldl_cons, ih, reports_validateOverlap hne]

theorem reports_validateResources (hrange : "invalid-rdat-resource-range" ≠ code)
    (hoverlap : "overlapping-rdat-resources" ≠ code) (resources : List RdatResourceInfo) :
    (validateResources info resources).Reports code ↔ info.Reports code := by
  induction resources generalizing info with
  | nil => rfl
  | cons lhs resources ih =>
    rw [validateResources, ih, reports_validateOverlaps hoverlap]
    exact reports_addOther hrange _ _ _ _

/-- **The shader info that is reported as missing** is that of a function for which none is found.
-/
theorem reports_validateRuntimeDataInfo (runtimeData : RuntimeDataInfo) :
    (validateRuntimeDataInfo (some runtimeData) {}).Reports missingRdatShaderInfo ↔
      ∃ function ∈ runtimeData.functions, function.missesShaderInfo runtimeData = true := by
  have hnone : ¬(({} : DxilValidationInfo).Reports missingRdatShaderInfo) := by
    rintro ⟨diagnostic, hmem, -⟩
    exact List.not_mem_nil hmem
  unfold validateRuntimeDataInfo
  refine (reports_validateResources (by decide) (by decide) _).trans ?_
  rw [reports_validateFunctions]
  refine or_iff_right fun hreports => hnone ?_
  exact (reports_addOther (by decide) _ _ _ _).mp hreports

end Reports

/-! ## The function table in the blob -/

/-- Where a part is. -/
def partOffset (data : List Byte) (k : Nat) : Nat :=
  (readU32 data (kRuntimeDataHeaderSize + k * 4)).toNat

/-- Where a record of a part is, behind the headers of the part and of the table. -/
def recordOffset (data : List Byte) (k i : Nat) : Nat :=
  partOffset data k + kRuntimeDataPartHeaderSize + kRuntimeDataTableHeaderSize +
    i * (readU32 data (partOffset data k + 12)).toNat

/-- A function is a node with shader info: the first function table has records long enough for it,
and one of these has the kind of a node and an index that is not null. -/
def NodeShaderInfo (data : List Byte) : Prop :=
  ∃ k < (readU32 data 4).toNat,
    readU32 data (partOffset data k) = Rdat.functionTable ∧
    (∀ j < k, readU32 data (partOffset data j) ≠ Rdat.functionTable) ∧
    kRdatFunctionRecord2Size ≤ (readU32 data (partOffset data k + 12)).toNat ∧
    ∃ i < (readU32 data (partOffset data k + 8)).toNat,
      readU32 data (recordOffset data k i + 16) = 15 ∧
        readU32 data (recordOffset data k i + 48) ≠ kRdatNullRef

instance (data : List Byte) : Decidable (NodeShaderInfo data) := by
  delta NodeShaderInfo
  infer_instance

section Blob

variable {data : List Byte}

theorem byteAt_subspan {start size offset : Nat} (h : offset < size) :
    byteAt (subspan data start size) offset = byteAt data (start + offset) := by
  unfold byteAt subspan
  rw [List.getElem?_take, if_pos h, List.getElem?_drop]

theorem readU32_subspan {start size offset : Nat} (h : offset + 4 ≤ size) :
    readU32 (subspan data start size) offset = readU32 data (start + offset) := by
  unfold readU32
  rw [byteAt_subspan (by omega), byteAt_subspan (by omega), byteAt_subspan (by omega),
    byteAt_subspan (by omega)]
  rfl

theorem subspan_subspan {start size start' size' : Nat} (h : start' + size' ≤ size) :
    subspan (subspan data start size) start' size' = subspan data (start + start') size' := by
  unfold subspan
  rw [List.drop_take, List.drop_drop, List.take_take, Nat.min_eq_left (by omega)]

theorem length_subspan_le (start size : Nat) : (subspan data start size).length ≤ size :=
  List.length_take_le _ _

theorem checkedEnd_spec {offset size limit last : Nat}
    (h : checkedEnd offset size limit = some last) :
    offset + size ≤ limit ∧ last = offset + size := by
  unfold checkedEnd at h
  split at h
  · cases h
  · cases h
    exact ⟨by omega, rfl⟩

/-- What a part says is in the blob. -/
structure PartOf (data : List Byte) (k : Nat) (part : RuntimeDataPartInfo) : Prop where
  type : part.type = readU32 data (partOffset data k)
  isTable : part.isTable = isRdatTablePart part.type
  recordCount : part.isTable = true → part.recordCount = readU32 data (partOffset data k + 8)
  recordStride : part.isTable = true → part.recordStride = readU32 data (partOffset data k + 12)
  tableData : part.isTable = true → part.tableData =
    subspan data (partOffset data k + kRuntimeDataPartHeaderSize + kRuntimeDataTableHeaderSize)
      (part.recordCount.toNat * part.recordStride.toNat)

theorem parsePart_spec {last k : Nat} {part : RuntimeDataPartInfo}
    (h : parsePart data last k = some part) :
    PartOf data k part := by
  unfold parsePart at h
  dsimp only at h
  split at h
  · cases h
  obtain ⟨partHeaderEnd, hheader, h⟩ := Option.bind_eq_some_iff.mp h
  obtain ⟨-, rfl⟩ := checkedEnd_spec hheader
  obtain ⟨partEnd, -, h⟩ := Option.bind_eq_some_iff.mp h
  split at h
  · cases h
  split at h
  · rename_i htable
    unfold parseTableHeader at h
    split at h
    · cases h
    rename_i hsize
    dsimp only at h
    split at h
    · cases h
    obtain ⟨tableDataEnd, hend, h⟩ := Option.bind_eq_some_iff.mp h
    obtain ⟨hfits, rfl⟩ := checkedEnd_spec hend
    cases h
    have hbounds := Nat.le_trans hfits (length_subspan_le _ _)
    have hpart := Nat.le_trans (Nat.not_lt.mp hsize) (length_subspan_le _ _)
    unfold kRuntimeDataTableHeaderSize at hpart hbounds
    refine ⟨rfl, rfl, fun _ => ?_, fun _ => ?_, fun _ => ?_⟩
    · exact readU32_subspan (by omega)
    · exact readU32_subspan (by omega)
    · unfold kRuntimeDataTableHeaderSize
      dsimp only
      rw [Nat.add_sub_cancel_left]
      exact subspan_subspan hbounds
  · rename_i htable
    cases h
    exact ⟨rfl, rfl, fun h => absurd h htable, fun h => absurd h htable, fun h => absurd h htable⟩

/-- The first part of a type, as the blob says. -/
theorem findPart_iff {last count : Nat} {parts : List RuntimeDataPartInfo} {type : Word}
    (h : readRecords (parsePart data last) count = some parts) {table : RuntimeDataPartInfo} :
    findPart parts type = some table ↔ ∃ k, ∃ hk : k < parts.length, parts[k] = table ∧
      readU32 data (partOffset data k) = type ∧ ∀ j < k,
        readU32 data (partOffset data j) ≠ type := by
  have htype : ∀ k, ∀ hk : k < parts.length, parts[k].type = readU32 data (partOffset data k) :=
    fun k hk => (parsePart_spec (read_eq_getElem h hk)).type
  unfold findPart
  rw [List.find?_eq_some_iff_getElem, decide_eq_true_eq]
  constructor
  · rintro ⟨hfound, k, hk, rfl, hfirst⟩
    refine ⟨k, hk, rfl, htype k hk ▸ hfound, fun j hj heq => ?_⟩
    have hnot := hfirst j hj
    rw [Bool.not_eq_true', decide_eq_false_iff_not, htype j (by omega)] at hnot
    exact hnot heq
  · rintro ⟨k, hk, rfl, hfound, hfirst⟩
    refine ⟨(htype k hk).trans hfound, k, hk, rfl, fun j hj => ?_⟩
    rw [Bool.not_eq_true', decide_eq_false_iff_not, htype j (by omega)]
    exact hfirst j hj

/-- The words of a record that is in its table. -/
theorem readU32_record {k : Nat} {table : RuntimeDataPartInfo} (h : PartOf data k table)
    (htable : table.isTable = true) {i size offset : Nat} (hi : i < table.recordCount.toNat)
    (hsize : size ≤ table.recordStride.toNat) (hoffset : offset + 4 ≤ size) :
    readU32 (table.record i size) offset = readU32 data (recordOffset data k i + offset) := by
  have hend : i * table.recordStride.toNat + size ≤
      table.recordCount.toNat * table.recordStride.toNat := by
    calc i * table.recordStride.toNat + size
        ≤ i * table.recordStride.toNat + table.recordStride.toNat := Nat.add_le_add_left hsize _
      _ = (i + 1) * table.recordStride.toNat := (Nat.succ_mul _ _).symm
      _ ≤ table.recordCount.toNat * table.recordStride.toNat := Nat.mul_le_mul_right _ hi
  unfold RuntimeDataPartInfo.record
  rw [h.tableData htable, subspan_subspan hend, readU32_subspan hoffset, recordOffset,
    ← h.recordStride htable]

end Blob

theorem shaderInfoTable_node (shaderKind : Word) :
    shaderInfoTable shaderKind = some Rdat.nodeShaderInfoTable ↔ shaderKind = 15 := by
  unfold shaderInfoTable
  rw [← BitVec.toNat_inj]
  split
  all_goals first
    | (rename_i hkind
       rw [hkind]
       decide)
    | (rename_i hkind
       exact ⟨nofun, fun h => absurd h hkind⟩)

/-- A function is a node with shader info. -/
def RdatFunctionInfo.IsNode (function : RdatFunctionInfo) : Prop :=
  function.hasShaderInfo = true ∧ function.shaderInfoTableType = Rdat.nodeShaderInfoTable

theorem functionFields_isNode (table : RuntimeDataPartInfo) (i : Nat) :
    (functionFields table i).IsNode ↔ kRdatFunctionRecord2Size ≤ table.recordStride.toNat ∧
      readU32 (table.record i kRdatFunctionRecordSize) 16 = 15 ∧
      readU32 (table.record i kRdatFunctionRecord2Size) 48 ≠ kRdatNullRef := by
  unfold functionFields RdatFunctionInfo.IsNode
  dsimp only
  split
  · rename_i hlong
    unfold RdatFunctionInfo.readRecord2
    dsimp only
    rw [← shaderInfoTable_node]
    split
    · rename_i hnone
      rw [hnone]
      exact ⟨fun h => absurd h.1 nofun, fun h => absurd h.2.1 nofun⟩
    · rename_i tableType hsome
      rw [hsome, decide_eq_true_eq, Option.some.injEq]
      exact ⟨fun h => ⟨hlong, h.2, h.1⟩, fun h => ⟨h.2.2, h.2.1⟩⟩
  · rename_i hshort
    exact ⟨fun h => absurd h.1 nofun, fun h => absurd h.1 hshort⟩

/-! ## What is accepted -/

section Accepted

variable {data : List Byte} {info : RuntimeDataInfo}

/-- The parts and the tables of a blob that is accepted. -/
theorem tables_of_accepted (h : parseRuntimeData data = some info) :
    ∃ last parts before, readRecords (parsePart data last) (readU32 data 4).toNat = some parts ∧
      TablesRead parts before info := by
  unfold parseRuntimeData at h
  split at h
  · cases h
  obtain ⟨last, -, h⟩ := Option.bind_eq_some_iff.mp h
  obtain ⟨parts, hparts, h⟩ := Option.bind_eq_some_iff.mp h
  obtain ⟨before, hbefore⟩ := coreTables_read h
  exact ⟨last, parts, before, hparts, hbefore⟩

/-- **Every reference is below the size of its table.** -/
theorem closed_of_accepted (h : parseRuntimeData data = some info) : Closed info.store := by
  obtain ⟨last, parts, before, -, hbefore⟩ := tables_of_accepted h
  exact hbefore.closed

/-- A node is in another table than the validator looks into, and every other shader info was found.
-/
theorem TablesRead.misses_iff {parts : List RuntimeDataPartInfo} {before : RuntimeDataInfo}
    (h : TablesRead parts before info) {function : RdatFunctionInfo}
    (hfunction : function ∈ info.functions) :
    function.missesShaderInfo info = true ↔ function.IsNode := by
  obtain ⟨table, -, i, -, hread⟩ := read_of_parseTable h.functions hfunction
  have hfound := (readsFunction hread).found
  have hsame : info.findShaderInfo = before.findShaderInfo := by
    unfold RuntimeDataInfo.findShaderInfo
    rw [h.shaderInfos]
  unfold RdatFunctionInfo.missesShaderInfo RdatFunctionInfo.IsNode
  rw [hsame, Bool.and_eq_true]
  refine and_congr_right fun hhas => ?_
  unfold RdatFunctionInfo.shaderInfoFound at hfound
  rw [hhas, Bool.not_true, Bool.false_or] at hfound
  split at hfound
  · rename_i hnode
    refine ⟨fun _ => hnode, fun _ => ?_⟩
    rw [Option.isNone_iff_eq_none]
    unfold RuntimeDataInfo.findShaderInfo
    refine List.find?_eq_none.mpr fun shader hshader heq => ?_
    rw [decide_eq_true_eq] at heq
    have htype := h.types shader hshader
    rw [heq.1, hnode] at htype
    exact absurd htype (by decide)
  · rename_i hnode
    refine ⟨fun hnone => ?_, fun htype => absurd htype hnode⟩
    rw [Option.isNone_iff_eq_none.mp hnone] at hfound
    exact absurd hfound nofun

/-- The functions that are nodes with shader info are those that the blob says. -/
theorem TablesRead.isNode_iff {last : Nat} {parts : List RuntimeDataPartInfo}
    {before : RuntimeDataInfo} (h : TablesRead parts before info)
    (hparts : readRecords (parsePart data last) (readU32 data 4).toNat = some parts) :
    (∃ function ∈ info.functions, function.IsNode) ↔ NodeShaderInfo data := by
  have hlength := length_of_readRecords hparts
  -- the function table of the parts, and what the blob says of it
  have hpart : ∀ {k : Nat} (hk : k < parts.length),
      readU32 data (partOffset data k) = Rdat.functionTable →
      PartOf data k parts[k] ∧ parts[k].isTable = true := fun {k} hk htype => by
    have hpart := parsePart_spec (read_eq_getElem hparts hk)
    refine ⟨hpart, ?_⟩
    rw [hpart.isTable, hpart.type, htype]
    rfl
  constructor
  · rintro ⟨function, hfunction, hnode⟩
    obtain ⟨table, htable, i, hi, hread⟩ := read_of_parseTable h.functions hfunction
    rw [h.parts, findPart_iff hparts] at htable
    obtain ⟨k, hk, rfl, htype, hfirst⟩ := htable
    obtain ⟨hpart, hisTable⟩ := hpart hk htype
    have hfields : (functionFields parts[k] i).IsNode := by
      unfold RdatFunctionInfo.IsNode
      rw [← (readsFunction hread).hasShaderInfo, ← (readsFunction hread).shaderInfoTableType]
      exact hnode
    obtain ⟨hlong, hkind, hindex⟩ := (functionFields_isNode _ i).mp hfields
    have hshort : kRdatFunctionRecordSize ≤ parts[k].recordStride.toNat :=
      Nat.le_trans (by decide) hlong
    rw [readU32_record hpart hisTable hi hshort (by decide)] at hkind
    rw [readU32_record hpart hisTable hi hlong (by decide)] at hindex
    rw [hpart.recordStride hisTable] at hlong
    rw [hpart.recordCount hisTable] at hi
    exact ⟨k, hlength ▸ hk, htype, hfirst, hlong, i, hi, hkind, hindex⟩
  · rintro ⟨k, hk, htype, hfirst, hlong, i, hi, hkind, hindex⟩
    rw [← hlength] at hk
    obtain ⟨hpart, hisTable⟩ := hpart hk htype
    have htable : findPart before.parts Rdat.functionTable = some parts[k] := by
      rw [h.parts, findPart_iff hparts]
      exact ⟨k, hk, rfl, htype, hfirst⟩
    rw [← hpart.recordStride hisTable] at hlong
    rw [← hpart.recordCount hisTable] at hi
    obtain ⟨function, hfunction, hread⟩ := mem_of_parseTable h.functions htable hi
    have hshort : kRdatFunctionRecordSize ≤ parts[k].recordStride.toNat :=
      Nat.le_trans (by decide) hlong
    rw [← readU32_record hpart hisTable hi hshort (by decide)] at hkind
    rw [← readU32_record hpart hisTable hi hlong (by decide)] at hindex
    have hfields := (functionFields_isNode parts[k] i).mpr ⟨hlong, hkind, hindex⟩
    refine ⟨function, hfunction, ?_⟩
    unfold RdatFunctionInfo.IsNode at hfields ⊢
    rw [(readsFunction hread).hasShaderInfo, (readsFunction hread).shaderInfoTableType]
    exact hfields

/-- **The validator reports a shader info as missing** exactly where a function is a node with
shader info. -/
theorem reports_iff (h : parseRuntimeData data = some info) :
    (validateRuntimeDataInfo (some info) {}).Reports missingRdatShaderInfo ↔
      NodeShaderInfo data := by
  obtain ⟨last, parts, before, hparts, hbefore⟩ := tables_of_accepted h
  rw [reports_validateRuntimeDataInfo, ← hbefore.isNode_iff hparts]
  exact exists_congr fun function => and_congr_right fun hfunction => hbefore.misses_iff hfunction

/-- What the parser accepts is closed under its references, and the validator reports no shader info
as missing. -/
structure Sound (info : RuntimeDataInfo) : Prop where
  closed : Closed info.store
  complete : ¬(validateRuntimeDataInfo (some info) {}).Reports missingRdatShaderInfo

/-- **Exactly the accepted blobs** in which no function is a node with shader info are sound. -/
theorem sound_iff (h : parseRuntimeData data = some info) : Sound info ↔ ¬NodeShaderInfo data := by
  rw [← reports_iff h]
  exact ⟨fun hsound => hsound.complete, fun hcomplete => ⟨closed_of_accepted h, hcomplete⟩⟩

end Accepted

/-- A function of the compute stage, and its shader info. -/
def computeBlob : List Byte :=
  encodeWords
    ([1, 2, 16, 40] ++
      [19, 16, 1, 8] ++ [0xffffffff, 0] ++
      [4, 60, 1, 52] ++ [0xffffffff, 0xffffffff, 0xffffffff, 0xffffffff, 5, 0, 0, 0, 0, 0, 0, 0, 0])

theorem sound_iff_compute : ∃ info, parseRuntimeData computeBlob = some info ∧ Sound info := by
  have hsome : (parseRuntimeData computeBlob).isSome = true := by decide +kernel
  obtain ⟨info, hinfo⟩ := Option.isSome_iff_exists.mp hsome
  exact ⟨info, hinfo, (sound_iff hinfo).mpr (by decide +kernel)⟩

/-- A function that is a node, and its shader info. -/
def nodeBlob : List Byte :=
  encodeWords
    ([1, 2, 16, 52] ++
      [11, 28, 1, 20] ++ [0, 0, 0xffffffff, 0xffffffff, 0xffffffff] ++
      [4, 60, 1, 52] ++ [0xffffffff, 0xffffffff, 0xffffffff, 0xffffffff, 15, 0, 0, 0, 0, 0, 0, 0,
      0])

/-- The node is accepted, and reported. -/
theorem node_reported : ∃ info, parseRuntimeData nodeBlob = some info ∧ ¬Sound info := by
  have hsome : (parseRuntimeData nodeBlob).isSome = true := by decide +kernel
  obtain ⟨info, hinfo⟩ := Option.isSome_iff_exists.mp hsome
  exact ⟨info, hinfo, fun hsound => hsound.complete ((reports_iff hinfo).mpr (by decide +kernel))⟩

end RuntimeData

end Dxmt
