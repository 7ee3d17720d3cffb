import Dxmt.RuntimeData

/-!
# References between the tables of runtime data

The tables of a blob are a store: the infos of shaders are one table for each type. A reference is
an index that a record holds, with the table it points into.

* A blob that is accepted gives a closed store (`closed_of_accepted`).
* The shader info of a function is looked up in two ways: the parser knows that the info of a node
  is in a table of its own, and the validator does not.
-/

namespace Dxmt

namespace RuntimeData

open ReferenceTables

/-! ## The store -/

/-- The tables that records are in, with one table of shader infos for each type. -/
inductive RdatTable where
  | resources
  | subobjects
  | nodeIds
  | nodeFunctionAttributes
  | nodeIoAttributes
  | ioNodes
  | nodeShaderInfos
  | signatureElements
  | shaderInfos (type : Word)
  | functions
  | pdbSources
  | pdbLibraries
  | pdbInfos
deriving DecidableEq

/-- A record of a table. -/
abbrev Reference : Type := RdatTable × Nat

/-- Indices into one table. -/
def refer (t : RdatTable) (indices : List Word) : List Reference :=
  indices.map fun index => (t, index.toNat)

/-- An attribute of two kinds names a node. -/
def RdatNodeShaderFuncAttribInfo.references (attrib : RdatNodeShaderFuncAttribInfo) :
    List Reference :=
  if attrib.kind.toNat = 1 ∨ attrib.kind.toNat = 3 then [(.nodeIds, attrib.nodeIdIndex.toNat)]
  else []

/-- What the attribute names. -/
def RdatNodeShaderIoAttribInfo.references (attrib : RdatNodeShaderIoAttribInfo) : List Reference :=
  if attrib.kind.toNat = 1 then [(.nodeIds, attrib.nodeIdIndex.toNat)] else []

/-- What the node names. -/
def RdatIoNodeInfo.references (node : RdatIoNodeInfo) : List Reference :=
  refer .nodeIoAttributes node.attributeIndices

/-- What the node shader names. -/
def RdatNodeShaderInfo.references (shader : RdatNodeShaderInfo) : List Reference :=
  refer .nodeFunctionAttributes shader.attributeIndices ++ refer .ioNodes shader.outputIndices ++
    refer .ioNodes shader.inputIndices

/-- What the shader names. -/
def RdatShaderInfo.references (shader : RdatShaderInfo) : List Reference :=
  refer .signatureElements (shader.inputSignatureIndices ++ shader.outputSignatureIndices ++
    shader.patchConstantSignatureIndices ++ shader.primitiveSignatureIndices)

/-- The table that the shader info of a function is in. -/
def RdatFunctionInfo.infoTable (function : RdatFunctionInfo) : RdatTable :=
  if function.shaderInfoTableType = Rdat.nodeShaderInfoTable then .nodeShaderInfos
  else .shaderInfos function.shaderInfoTableType

/-- What the function names. -/
def RdatFunctionInfo.references (function : RdatFunctionInfo) : List Reference :=
  refer .resources function.resourceIndices ++
    if function.hasShaderInfo then [(function.infoTable, function.shaderInfoIndex.toNat)] else []

/-- What the debug record names. -/
def RdatPdbInfo.references (pdb : RdatPdbInfo) : List Reference :=
  refer .pdbSources pdb.sourceIndices ++ refer .pdbLibraries pdb.libraryIndices

namespace RuntimeDataInfo

variable (info : RuntimeDataInfo)

/-- What the records of each table refer to. -/
def store : Store RdatTable
  | .resources => info.resources.map fun _ => []
  | .subobjects => info.subobjects.map fun _ => []
  | .nodeIds => info.nodeIds.map fun _ => []
  | .nodeFunctionAttributes => info.nodeFunctionAttributes.map (·.references)
  | .nodeIoAttributes => info.nodeIoAttributes.map (·.references)
  | .ioNodes => info.ioNodes.map (·.references)
  | .nodeShaderInfos => info.nodeShaderInfos.map (·.references)
  | .signatureElements => info.signatureElements.map fun _ => []
  | .shaderInfos type => (info.shaderInfos.filter (·.tableType = type)).map (·.references)
  | .functions => info.functions.map (·.references)
  | .pdbSources => info.pdbSources.map fun _ => []
  | .pdbLibraries => info.pdbLibraries.map fun _ => []
  | .pdbInfos => info.pdbInfos.map (·.references)

/-- Every shader info has a number below the size of its table. -/
def Numbered : Prop :=
  ∀ shader ∈ info.shaderInfos, InTable info.store (.shaderInfos shader.tableType,
    shader.recordIndex.toNat)

end RuntimeDataInfo

/-! ## What is read -/

section Read

variable {info : RuntimeDataInfo}

/-- Indices below the table's length name records. -/
theorem inTable_refer {s : Store RdatTable} {t : RdatTable} {indices : List Word}
    {reference : Reference} :
    (∀ index ∈ indices, index.toNat < (s t).length) → reference ∈ refer t indices →
      InTable s reference := by
  intro h hreference
  obtain ⟨index, hindex, rfl⟩ := List.mem_map.mp hreference
  exact h index hindex

/-- Every index that is read is below the count. -/
theorem readNullableRdatRecordArray_lt {offset : Word} {count : Nat} {out : List Word}
    (h : info.readNullableRdatRecordArray offset count = some out) :
    ∀ index ∈ out, index.toNat < count := by
  intro index hindex
  exact of_decide_eq_true (List.all_eq_true.mp (Option.filter_eq_some_iff.mp h).2 index hindex)

/-- A record is read at a place of the first table of its type. -/
theorem read_of_parseTable {α : Type} {type : Word} {recordSize : Nat} {records : List α}
    {parseRecord : RuntimeDataPartInfo → Nat → Option α}
    (h : parseTable info type recordSize [] parseRecord = some records) {record : α}
    (hrecord : record ∈ records) : ∃ table, findPart info.parts type = some table ∧
      ∃ i < table.recordCount.toNat, parseRecord table i = some record := by
  unfold parseTable at h
  split at h
  · cases h
    exact absurd hrecord List.not_mem_nil
  · rename_i table htable
    split at h
    · cases h
      exact absurd hrecord List.not_mem_nil
    · split at h
      · cases h
      · exact ⟨table, htable, read_of_mem h hrecord⟩

/-- Every place of the table is read. -/
theorem mem_of_parseTable {α : Type} {type : Word} {recordSize : Nat} {records : List α}
    {parseRecord : RuntimeDataPartInfo → Nat → Option α}
    (h : parseTable info type recordSize [] parseRecord = some records)
    {table : RuntimeDataPartInfo} (htable : findPart info.parts type = some table) {i : Nat}
    (hi : i < table.recordCount.toNat) :
    ∃ record ∈ records, parseRecord table i = some record := by
  have hcount : table.recordCount ≠ 0 := by
    rintro hzero
    rw [hzero] at hi
    exact Nat.not_lt_zero _ hi
  rw [parseTable, htable] at h
  dsimp only at h
  rw [if_neg hcount] at h
  split at h
  · cases h
  · exact mem_of_lt h hi

/-- A record keeps its number. -/
theorem number_of_parseTable {α : Type} {type : Word} {recordSize : Nat} {records : List α}
    {parseRecord : RuntimeDataPartInfo → Nat → Option α} (number : α → Nat)
    (h : parseTable info type recordSize [] parseRecord = some records)
    (hnumber : ∀ table i record, parseRecord table i = some record → number record ≤ i) {record : α}
    (hrecord : record ∈ records) : number record < records.length := by
  unfold parseTable at h
  split at h
  · cases h
    exact absurd hrecord List.not_mem_nil
  · split at h
    · cases h
      exact absurd hrecord List.not_mem_nil
    · split at h
      · cases h
      · exact number_lt number h (hnumber _) hrecord

end Read

/-! ## One record -/

section Record

variable {info : RuntimeDataInfo} {table : RuntimeDataPartInfo} {i : Nat}

theorem length_store_nodeIds : (info.store .nodeIds).length = info.nodeIds.length :=
  List.length_map _

theorem length_store_nodeIoAttributes :
    (info.store .nodeIoAttributes).length = info.nodeIoAttributes.length :=
  List.length_map _

theorem length_store_nodeFunctionAttributes :
    (info.store .nodeFunctionAttributes).length = info.nodeFunctionAttributes.length :=
  List.length_map _

theorem length_store_ioNodes : (info.store .ioNodes).length = info.ioNodes.length :=
  List.length_map _

theorem length_store_nodeShaderInfos :
    (info.store .nodeShaderInfos).length = info.nodeShaderInfos.length :=
  List.length_map _

theorem length_store_signatureElements :
    (info.store .signatureElements).length = info.signatureElements.length :=
  List.length_map _

/-- A table of the store has the shader records of its type. -/
theorem length_store_shaderInfos {type : Word} :
    (info.store (.shaderInfos type)).length =
    (info.shaderInfos.filter (·.tableType = type)).length :=
  List.length_map _

theorem length_store_resources : (info.store .resources).length = info.resources.length :=
  List.length_map _

theorem length_store_pdbSources : (info.store .pdbSources).length = info.pdbSources.length :=
  List.length_map _

theorem length_store_pdbLibraries : (info.store .pdbLibraries).length = info.pdbLibraries.length :=
  List.length_map _

theorem kind_nodeShaderFuncAttrib {attrib : RdatNodeShaderFuncAttribInfo}
    (h : parseNodeShaderFuncAttrib info table i = some attrib) :
    attrib.kind = readU32 (table.record i kRdatNodeShaderFuncAttribRecordSize) 0 := by
  unfold parseNodeShaderFuncAttrib at h
  dsimp only at h
  split at h
  all_goals first
    | (cases h; rfl)
    | (obtain ⟨values, -, h⟩ := Option.bind_eq_some_iff.mp h; cases h; rfl)
    | (split at h <;> cases h; rfl)

/-- Whatever a function attribute names is there. -/
theorem inTable_nodeShaderFuncAttrib {attrib : RdatNodeShaderFuncAttribInfo}
    (h : parseNodeShaderFuncAttrib info table i = some attrib) :
    ∀ reference ∈ attrib.references, InTable info.store reference := by
  intro reference hreference
  have hnode : attrib.kind.toNat = 1 ∨ attrib.kind.toNat = 3 →
      attrib.nodeIdIndex.toNat < info.nodeIds.length := by
    rw [kind_nodeShaderFuncAttrib h]
    unfold parseNodeShaderFuncAttrib at h
    rintro (hkind | hkind)
    all_goals
      simp only [hkind] at h
      split at h
      · cases h
      · cases h
        exact Nat.not_le.mp ‹_›
  unfold RdatNodeShaderFuncAttribInfo.references at hreference
  split at hreference
  · cases List.mem_singleton.mp hreference
    rw [InTable, length_store_nodeIds]
    exact hnode ‹_›
  · exact absurd hreference List.not_mem_nil

theorem kind_nodeShaderIoAttrib {attrib : RdatNodeShaderIoAttribInfo}
    (h : parseNodeShaderIoAttrib info table i = some attrib) :
    attrib.kind = readU32 (table.record i kRdatNodeShaderIoAttribRecordSize) 0 := by
  unfold parseNodeShaderIoAttrib at h
  dsimp only at h
  split at h
  all_goals first
    | (cases h; rfl)
    | (split at h <;> cases h; rfl)

/-- Whatever an io attribute names is there. -/
theorem inTable_nodeShaderIoAttrib {attrib : RdatNodeShaderIoAttribInfo}
    (h : parseNodeShaderIoAttrib info table i = some attrib) :
    ∀ reference ∈ attrib.references, InTable info.store reference := by
  intro reference hreference
  have hnode : attrib.kind.toNat = 1 → attrib.nodeIdIndex.toNat < info.nodeIds.length := by
    rw [kind_nodeShaderIoAttrib h]
    unfold parseNodeShaderIoAttrib at h
    intro hkind
    simp only [hkind] at h
    split at h
    · cases h
    · cases h
      exact Nat.not_le.mp ‹_›
  unfold RdatNodeShaderIoAttribInfo.references at hreference
  split at hreference
  · cases List.mem_singleton.mp hreference
    rw [InTable, length_store_nodeIds]
    exact hnode ‹_›
  · exact absurd hreference List.not_mem_nil

/-- Whatever a node names is there. -/
theorem inTable_ioNode {node : RdatIoNodeInfo} (h : parseIoNode info table i = some node) :
    ∀ reference ∈ node.references, InTable info.store reference := by
  obtain ⟨attributeIndices, hattributes, h⟩ := Option.bind_eq_some_iff.mp h
  cases h
  intro reference hreference
  apply inTable_refer _ hreference
  rw [length_store_nodeIoAttributes]
  exact readNullableRdatRecordArray_lt hattributes

/-- Whatever a node shader names is there. -/
theorem inTable_nodeShaderInfo {shader : RdatNodeShaderInfo}
    (h : parseNodeShaderInfo info table i = some shader) :
    ∀ reference ∈ shader.references, InTable info.store reference := by
  obtain ⟨attributeIndices, hattributes, h⟩ := Option.bind_eq_some_iff.mp h
  obtain ⟨outputIndices, houtputs, h⟩ := Option.bind_eq_some_iff.mp h
  obtain ⟨inputIndices, hinputs, h⟩ := Option.bind_eq_some_iff.mp h
  cases h
  intro reference hreference
  rcases List.mem_append.mp hreference with hreference | hreference
  · rcases List.mem_append.mp hreference with hreference | hreference
    · apply inTable_refer _ hreference
      rw [length_store_nodeFunctionAttributes]
      exact readNullableRdatRecordArray_lt hattributes
    · apply inTable_refer _ hreference
      rw [length_store_ioNodes]
      exact readNullableRdatRecordArray_lt houtputs
  · apply inTable_refer _ hreference
    rw [length_store_ioNodes]
    exact readNullableRdatRecordArray_lt hinputs

/-- Whatever a debug record names is there. -/
theorem inTable_pdbInfo {pdb : RdatPdbInfo} (h : parsePdbInfo info table i = some pdb) :
    ∀ reference ∈ pdb.references, InTable info.store reference := by
  obtain ⟨sourceIndices, hsources, h⟩ := Option.bind_eq_some_iff.mp h
  obtain ⟨libraryIndices, hlibraries, h⟩ := Option.bind_eq_some_iff.mp h
  obtain ⟨argPairs, -, h⟩ := Option.bind_eq_some_iff.mp h
  obtain ⟨hash, -, h⟩ := Option.bind_eq_some_iff.mp h
  obtain ⟨pdbName, -, h⟩ := Option.bind_eq_some_iff.mp h
  obtain ⟨customToolchainData, -, h⟩ := Option.bind_eq_some_iff.mp h
  obtain ⟨wholeDxil, -, h⟩ := Option.bind_eq_some_iff.mp h
  cases h
  intro reference hreference
  rcases List.mem_append.mp hreference with hreference | hreference
  · apply inTable_refer _ hreference
    rw [length_store_pdbSources]
    exact readNullableRdatRecordArray_lt hsources
  · apply inTable_refer _ hreference
    rw [length_store_pdbLibraries]
    exact readNullableRdatRecordArray_lt hlibraries

/-! A shader info keeps the type and the number that it is given, and its signatures are in the
table. -/

/-- The signature elements of a shader info are in the table. -/
structure RdatShaderInfo.SignaturesIn (shader : RdatShaderInfo) (count : Nat) : Prop where
  inputs : ∀ index ∈ shader.inputSignatureIndices, index.toNat < count
  outputs : ∀ index ∈ shader.outputSignatureIndices, index.toNat < count
  patchConstants : ∀ index ∈ shader.patchConstantSignatureIndices, index.toNat < count
  primitives : ∀ index ∈ shader.primitiveSignatureIndices, index.toNat < count

/-- What every reader of a shader info does. -/
structure ReadsShader (info : RuntimeDataInfo) (shader shader' : RdatShaderInfo) : Prop where
  tableType : shader'.tableType = shader.tableType
  recordIndex : shader'.recordIndex = shader.recordIndex
  signatures : shader.SignaturesIn info.signatureElements.length →
    shader'.SignaturesIn info.signatureElements.length

variable {record : List Byte} {shader shader' : RdatShaderInfo}

theorem readsShader_vs (h : parseVSInfo info record shader = some shader') :
    ReadsShader info shader shader' := by
  obtain ⟨inputs, hinputs, h⟩ := Option.bind_eq_some_iff.mp h
  obtain ⟨outputs, houtputs, h⟩ := Option.bind_eq_some_iff.mp h
  obtain ⟨viewIdOutputMask, -, h⟩ := Option.bind_eq_some_iff.mp h
  cases h
  exact ⟨rfl, rfl, fun hs => ⟨readNullableRdatRecordArray_lt hinputs,
    readNullableRdatRecordArray_lt houtputs, hs.patchConstants, hs.primitives⟩⟩

theorem readsShader_ps (h : parsePSInfo info record shader = some shader') :
    ReadsShader info shader shader' := by
  obtain ⟨inputs, hinputs, h⟩ := Option.bind_eq_some_iff.mp h
  obtain ⟨outputs, houtputs, h⟩ := Option.bind_eq_some_iff.mp h
  cases h
  exact ⟨rfl, rfl, fun hs => ⟨readNullableRdatRecordArray_lt hinputs,
    readNullableRdatRecordArray_lt houtputs, hs.patchConstants, hs.primitives⟩⟩

theorem readsShader_hs (h : parseHSInfo info record shader = some shader') :
    ReadsShader info shader shader' := by
  obtain ⟨inputs, hinputs, h⟩ := Option.bind_eq_some_iff.mp h
  obtain ⟨outputs, houtputs, h⟩ := Option.bind_eq_some_iff.mp h
  obtain ⟨patchConstants, hpatchConstants, h⟩ := Option.bind_eq_some_iff.mp h
  obtain ⟨viewIdOutputMask, -, h⟩ := Option.bind_eq_some_iff.mp h
  obtain ⟨viewIdPatchConstantOutputMask, -, h⟩ := Option.bind_eq_some_iff.mp h
  obtain ⟨inputToOutputMasks, -, h⟩ := Option.bind_eq_some_iff.mp h
  obtain ⟨inputToPatchConstantOutputMasks, -, h⟩ := Option.bind_eq_some_iff.mp h
  cases h
  exact ⟨rfl, rfl, fun hs => ⟨readNullableRdatRecordArray_lt hinputs,
    readNullableRdatRecordArray_lt houtputs, readNullableRdatRecordArray_lt hpatchConstants,
      hs.primitives⟩⟩

theorem readsShader_ds (h : parseDSInfo info record shader = some shader') :
    ReadsShader info shader shader' := by
  obtain ⟨inputs, hinputs, h⟩ := Option.bind_eq_some_iff.mp h
  obtain ⟨outputs, houtputs, h⟩ := Option.bind_eq_some_iff.mp h
  obtain ⟨patchConstants, hpatchConstants, h⟩ := Option.bind_eq_some_iff.mp h
  obtain ⟨viewIdOutputMask, -, h⟩ := Option.bind_eq_some_iff.mp h
  obtain ⟨inputToOutputMasks, -, h⟩ := Option.bind_eq_some_iff.mp h
  obtain ⟨patchConstantInputToOutputMasks, -, h⟩ := Option.bind_eq_some_iff.mp h
  cases h
  exact ⟨rfl, rfl, fun hs => ⟨readNullableRdatRecordArray_lt hinputs,
    readNullableRdatRecordArray_lt houtputs, readNullableRdatRecordArray_lt hpatchConstants,
      hs.primitives⟩⟩

theorem readsShader_gs (h : parseGSInfo info record shader = some shader') :
    ReadsShader info shader shader' := by
  obtain ⟨inputs, hinputs, h⟩ := Option.bind_eq_some_iff.mp h
  obtain ⟨outputs, houtputs, h⟩ := Option.bind_eq_some_iff.mp h
  obtain ⟨viewIdOutputMask, -, h⟩ := Option.bind_eq_some_iff.mp h
  obtain ⟨inputToOutputMasks, -, h⟩ := Option.bind_eq_some_iff.mp h
  cases h
  exact ⟨rfl, rfl, fun hs => ⟨readNullableRdatRecordArray_lt hinputs,
    readNullableRdatRecordArray_lt houtputs, hs.patchConstants, hs.primitives⟩⟩

theorem readsShader_cs (h : parseCSInfo info record shader = some shader') :
    ReadsShader info shader shader' := by
  obtain ⟨numThreads, -, h⟩ := Option.bind_eq_some_iff.mp h
  cases h
  exact ⟨rfl, rfl, fun hs => ⟨hs.inputs, hs.outputs, hs.patchConstants, hs.primitives⟩⟩

theorem readsShader_ms (h : parseMSInfo info record shader = some shader') :
    ReadsShader info shader shader' := by
  obtain ⟨outputs, houtputs, h⟩ := Option.bind_eq_some_iff.mp h
  obtain ⟨primitives, hprimitives, h⟩ := Option.bind_eq_some_iff.mp h
  obtain ⟨viewIdOutputMask, -, h⟩ := Option.bind_eq_some_iff.mp h
  obtain ⟨viewIdPrimitiveOutputMask, -, h⟩ := Option.bind_eq_some_iff.mp h
  obtain ⟨numThreads, -, h⟩ := Option.bind_eq_some_iff.mp h
  cases h
  exact ⟨rfl, rfl, fun hs => ⟨hs.inputs, readNullableRdatRecordArray_lt houtputs, hs.patchConstants,
    readNullableRdatRecordArray_lt hprimitives⟩⟩

theorem readsShader_as (h : parseASInfo info record shader = some shader') :
    ReadsShader info shader shader' := by
  obtain ⟨numThreads, -, h⟩ := Option.bind_eq_some_iff.mp h
  cases h
  exact ⟨rfl, rfl, fun hs => ⟨hs.inputs, hs.outputs, hs.patchConstants, hs.primitives⟩⟩

/-- Every kind of shader reads its signatures through the checked arrays. -/
theorem readsShader {tableType : Word} {size : Nat}
    (h : parseShaderInfo info tableType size table i = some shader') :
    ReadsShader info { tableType := tableType, recordIndex := BitVec.ofNat 32 i } shader' := by
  unfold parseShaderInfo at h
  dsimp only at h
  split at h
  · exact readsShader_vs h
  split at h
  · exact readsShader_ps h
  split at h
  · exact readsShader_hs h
  split at h
  · exact readsShader_ds h
  split at h
  · exact readsShader_gs h
  split at h
  · exact readsShader_cs h
  split at h
  · exact readsShader_ms h
  split at h
  · exact readsShader_as h
  · cases h

/-- Whatever a shader names is there. -/
theorem inTable_shaderInfo {tableType : Word} {size : Nat}
    (h : parseShaderInfo info tableType size table i = some shader') :
    ∀ reference ∈ shader'.references, InTable info.store reference := by
  have hs := (readsShader h).signatures
    ⟨fun _ h => absurd h List.not_mem_nil, fun _ h => absurd h List.not_mem_nil,
      fun _ h => absurd h List.not_mem_nil, fun _ h => absurd h List.not_mem_nil⟩
  intro reference hreference
  apply inTable_refer _ hreference
  rw [length_store_signatureElements]
  intro index hindex
  rw [List.mem_append, List.mem_append, List.mem_append] at hindex
  rcases hindex with ((hindex | hindex) | hindex) | hindex
  · exact hs.inputs index hindex
  · exact hs.outputs index hindex
  · exact hs.patchConstants index hindex
  · exact hs.primitives index hindex

/-- What is read of a function. -/
structure ReadsFunction (info : RuntimeDataInfo) (table : RuntimeDataPartInfo) (i : Nat)
    (function : RdatFunctionInfo) : Prop where
  hasShaderInfo : function.hasShaderInfo = (functionFields table i).hasShaderInfo
  shaderInfoTableType : function.shaderInfoTableType = (functionFields table i).shaderInfoTableType
  resources : ∀ index ∈ function.resourceIndices, index.toNat < info.resources.length
  found : function.shaderInfoFound info = true

/-- A function reads its resources through the checked array, and looks its shader up. -/
theorem readsFunction {function : RdatFunctionInfo}
    (h : parseFunction info table i = some function) :
    ReadsFunction info table i function := by
  obtain ⟨name, -, h⟩ := Option.bind_eq_some_iff.mp h
  obtain ⟨unmangledName, -, h⟩ := Option.bind_eq_some_iff.mp h
  obtain ⟨resourceIndices, -, h⟩ := Option.bind_eq_some_iff.mp h
  split at h
  · cases h
  rename_i hresources
  obtain ⟨functionDependencies, -, h⟩ := Option.bind_eq_some_iff.mp h
  split at h
  · rename_i hfound
    cases h
    refine ⟨rfl, rfl, fun index hindex => Nat.not_le.mp fun hle => hresources ?_, hfound⟩
    exact List.any_eq_true.mpr ⟨index, hindex, decide_eq_true hle⟩
  · cases h

/-- Whatever a function names is there, where shader records keep their numbers. -/
theorem inTable_function {function : RdatFunctionInfo} (hnumbered : info.Numbered)
    (h : parseFunction info table i = some function) :
    ∀ reference ∈ function.references, InTable info.store reference := by
  have hreads := readsFunction h
  intro reference hreference
  rcases List.mem_append.mp hreference with hreference | hreference
  · apply inTable_refer _ hreference
    rw [length_store_resources]
    exact hreads.resources
  · split at hreference
    · rename_i hhas
      cases List.mem_singleton.mp hreference
      have hfound := hreads.found
      unfold RdatFunctionInfo.shaderInfoFound at hfound
      rw [hhas, Bool.not_true, Bool.false_or] at hfound
      unfold RdatFunctionInfo.infoTable
      split at hfound
      · rename_i htype
        rw [if_pos htype, InTable, length_store_nodeShaderInfos]
        exact of_decide_eq_true hfound
      · rename_i htype
        rw [if_neg htype]
        -- the record that is found has this type and this number
        obtain ⟨shader, hshader⟩ := Option.isSome_iff_exists.mp hfound
        unfold RuntimeDataInfo.findShaderInfo at hshader
        have hkey := List.find?_some hshader
        rw [decide_eq_true_eq] at hkey
        have hin := hnumbered shader (List.mem_of_find?_eq_some hshader)
        rw [hkey.1, hkey.2] at hin
        exact hin
    · exact absurd hreference List.not_mem_nil

end Record

/-! ## One table -/

section Step

variable {info info' : RuntimeDataInfo} {filled : List RdatTable}

/-- The store after a table is filled, where the other tables stay. -/
theorem built_of_fill {t : RdatTable} {α : Type} {records : List α}
    {references : α → List Reference} (h : Built info.store filled) (hnew : t ∉ filled)
    (ht : info'.store t = records.map references)
    (hothers : ∀ t' ≠ t, info'.store t' = info.store t')
    (hrecords : ∀ record ∈ records, ∀ reference ∈ references record, InTable info.store reference) :
    Built info'.store (t :: filled) := by
  rw [Function.eq_update_iff.mpr ⟨ht, hothers⟩]
  refine h.fill hnew fun record hrecord => ?_
  obtain ⟨record, hmem, rfl⟩ := List.mem_map.mp hrecord
  exact hrecords record hmem

/-- Records that refer to nothing. -/
theorem built_of_plain {t : RdatTable} {α : Type} {records : List α} (h : Built info.store filled)
    (hnew : t ∉ filled) (ht : info'.store t = records.map fun _ => [])
    (hothers : ∀ t' ≠ t, info'.store t' = info.store t') :
    Built info'.store (t :: filled) :=
  built_of_fill h hnew ht hothers fun _ _ _ hreference => absurd hreference List.not_mem_nil

/-- Records that are read from the table. -/
theorem built_of_read {t : RdatTable} {α : Type} {records : List α}
    {references : α → List Reference} {type : Word} {recordSize : Nat}
    {parseRecord : RuntimeDataPartInfo → Nat → Option α} (h : Built info.store filled)
    (hnew : t ∉ filled) (ht : info'.store t = records.map references)
    (hothers : ∀ t' ≠ t, info'.store t' = info.store t')
    (hparse : parseTable info type recordSize [] parseRecord = some records)
    (hrecord : ∀ table i record, parseRecord table i = some record →
      ∀ reference ∈ references record, InTable info.store reference) :
    Built info'.store (t :: filled) := by
  refine built_of_fill h hnew ht hothers fun record hmem => ?_
  obtain ⟨table, -, i, -, hread⟩ := read_of_parseTable hparse hmem
  exact hrecord table i record hread

/-- The table of the resources is filled; the others stay. -/
theorem built_resources (h : Built info.store filled) (hnew : .resources ∉ filled)
    (hparse : parseRuntimeDataResourceTable info = some info') :
    Built info'.store (.resources :: filled) := by
  obtain ⟨resources, -, hinfo⟩ := Option.bind_eq_some_iff.mp hparse
  cases hinfo
  exact built_of_plain h hnew rfl fun t ht => by cases t <;> first | rfl | exact absurd rfl ht

theorem built_subobjects (h : Built info.store filled) (hnew : .subobjects ∉ filled)
    (hparse : parseRuntimeDataSubobjectTable info = some info') :
    Built info'.store (.subobjects :: filled) := by
  obtain ⟨subobjects, -, hinfo⟩ := Option.bind_eq_some_iff.mp hparse
  cases hinfo
  exact built_of_plain h hnew rfl fun t ht => by cases t <;> first | rfl | exact absurd rfl ht

theorem built_nodeIds (h : Built info.store filled) (hnew : .nodeIds ∉ filled)
    (hparse : parseRuntimeDataNodeIdTable info = some info') :
    Built info'.store (.nodeIds :: filled) := by
  obtain ⟨nodeIds, -, hinfo⟩ := Option.bind_eq_some_iff.mp hparse
  cases hinfo
  exact built_of_plain h hnew rfl fun t ht => by cases t <;> first | rfl | exact absurd rfl ht

/-- The table of the signature elements is filled; the others stay. -/
theorem built_signatureElements (h : Built info.store filled) (hnew : .signatureElements ∉ filled)
    (hparse : parseRuntimeDataSignatureElementTable info = some info') :
    Built info'.store (.signatureElements :: filled) := by
  obtain ⟨signatureElements, -, hinfo⟩ := Option.bind_eq_some_iff.mp hparse
  cases hinfo
  exact built_of_plain h hnew rfl fun t ht => by cases t <;> first | rfl | exact absurd rfl ht

theorem built_pdbSources (h : Built info.store filled) (hnew : .pdbSources ∉ filled)
    (hparse : parseRuntimeDataPdbSourceTable info = some info') :
    Built info'.store (.pdbSources :: filled) := by
  obtain ⟨pdbSources, -, hinfo⟩ := Option.bind_eq_some_iff.mp hparse
  cases hinfo
  exact built_of_plain h hnew rfl fun t ht => by cases t <;> first | rfl | exact absurd rfl ht

theorem built_pdbLibraries (h : Built info.store filled) (hnew : .pdbLibraries ∉ filled)
    (hparse : parseRuntimeDataPdbLibraryTable info = some info') :
    Built info'.store (.pdbLibraries :: filled) := by
  obtain ⟨pdbLibraries, -, hinfo⟩ := Option.bind_eq_some_iff.mp hparse
  cases hinfo
  exact built_of_plain h hnew rfl fun t ht => by cases t <;> first | rfl | exact absurd rfl ht

theorem built_nodeFunctionAttributes (h : Built info.store filled)
    (hnew : .nodeFunctionAttributes ∉ filled)
    (hparse : parseRuntimeDataNodeShaderFuncAttribTable info = some info') :
    Built info'.store (.nodeFunctionAttributes :: filled) := by
  obtain ⟨attribs, htable, hinfo⟩ := Option.bind_eq_some_iff.mp hparse
  cases hinfo
  exact built_of_read h hnew rfl (fun t ht => by cases t <;> first | rfl | exact absurd rfl ht)
    htable
    fun _ _ _ => inTable_nodeShaderFuncAttrib

theorem built_nodeIoAttributes (h : Built info.store filled) (hnew : .nodeIoAttributes ∉ filled)
    (hparse : parseRuntimeDataNodeShaderIoAttribTable info = some info') :
    Built info'.store (.nodeIoAttributes :: filled) := by
  obtain ⟨attribs, htable, hinfo⟩ := Option.bind_eq_some_iff.mp hparse
  cases hinfo
  exact built_of_read h hnew rfl (fun t ht => by cases t <;> first | rfl | exact absurd rfl ht)
    htable
    fun _ _ _ => inTable_nodeShaderIoAttrib

theorem built_ioNodes (h : Built info.store filled) (hnew : .ioNodes ∉ filled)
    (hparse : parseRuntimeDataIoNodeTable info = some info') :
    Built info'.store (.ioNodes :: filled) := by
  obtain ⟨ioNodes, htable, hinfo⟩ := Option.bind_eq_some_iff.mp hparse
  cases hinfo
  exact built_of_read h hnew rfl (fun t ht => by cases t <;> first | rfl | exact absurd rfl ht)
    htable
    fun _ _ _ => inTable_ioNode

/-- The table of the node shaders is filled from tables that are. -/
theorem built_nodeShaderInfos (h : Built info.store filled) (hnew : .nodeShaderInfos ∉ filled)
    (hparse : parseRuntimeDataNodeShaderInfoTable info = some info') :
    Built info'.store (.nodeShaderInfos :: filled) := by
  obtain ⟨nodeShaderInfos, htable, hinfo⟩ := Option.bind_eq_some_iff.mp hparse
  cases hinfo
  exact built_of_read h hnew rfl (fun t ht => by cases t <;> first | rfl | exact absurd rfl ht)
    htable
    fun _ _ _ => inTable_nodeShaderInfo

/-- The table of the debug records is filled from tables that are. -/
theorem built_pdbInfos (h : Built info.store filled) (hnew : .pdbInfos ∉ filled)
    (hparse : parseRuntimeDataPdbInfoTable info = some info') :
    Built info'.store (.pdbInfos :: filled) := by
  obtain ⟨pdbInfos, htable, hinfo⟩ := Option.bind_eq_some_iff.mp hparse
  cases hinfo
  exact built_of_read h hnew rfl (fun t ht => by cases t <;> first | rfl | exact absurd rfl ht)
    htable
    fun _ _ _ => inTable_pdbInfo

/-- Without a table of functions, those that were there stay: there were none. -/
theorem built_functions (h : Built info.store filled) (hnew : .functions ∉ filled)
    (hnumbered : info.Numbered) (hparse : parseRuntimeDataFunctionTable info = some info') :
    Built info'.store (.functions :: filled) := by
  obtain ⟨functions, htable, hinfo⟩ := Option.bind_eq_some_iff.mp hparse
  cases hinfo
  have hnone : info.functions = [] := List.map_eq_nil_iff.mp (h.unfilled .functions hnew)
  rw [hnone] at htable
  exact built_of_read h hnew rfl (fun t ht => by cases t <;> first | rfl | exact absurd rfl ht)
    htable
    fun _ _ _ => inTable_function hnumbered

end Step

/-! ## The tables of shader infos -/

/-- The tables of shader infos of these types are filled, and nothing else was. -/
structure ShadersRead (info info' : RuntimeDataInfo) (types : List Word) : Prop where
  others : info' = { info with shaderInfos := info'.shaderInfos }
  numbered : info'.Numbered
  types : ∀ shader ∈ info'.shaderInfos, shader.tableType ∈ types

section Shaders

variable {info info' info'' : RuntimeDataInfo} {filled : List RdatTable} {tableType : Word}
    {size : Nat}

/-- The records of a type are appended to those of other types. -/
theorem filter_append_shaders {before shaders : List RdatShaderInfo}
    (hshaders : ∀ shader ∈ shaders, shader.tableType = tableType) :
    (before ++ shaders).filter (·.tableType = tableType) =
      before.filter (·.tableType = tableType) ++ shaders := by
  rw [List.filter_append]
  congr 1
  exact List.filter_eq_self.mpr fun shader hshader => decide_eq_true (hshaders shader hshader)

/-- A table of shaders is filled from the signature elements. -/
theorem built_shaderInfos (h : Built info.store filled) (hnew : .shaderInfos tableType ∉ filled)
    (hparse : parseRuntimeDataShaderInfoTable info tableType size = some info') :
    Built info'.store (.shaderInfos tableType :: filled) := by
  obtain ⟨shaders, htable, hinfo⟩ := Option.bind_eq_some_iff.mp hparse
  cases hinfo
  have htype : ∀ shader ∈ shaders, shader.tableType = tableType := fun shader hshader => by
    obtain ⟨table, -, i, -, hread⟩ := read_of_parseTable htable hshader
    exact (readsShader hread).tableType
  have hnone : info.shaderInfos.filter (·.tableType = tableType) = [] :=
    List.map_eq_nil_iff.mp (h.unfilled (.shaderInfos tableType) hnew)
  refine built_of_read h hnew ?_ (fun t ht => ?_) htable fun _ _ _ => inTable_shaderInfo
  · show ((info.shaderInfos ++ shaders).filter (·.tableType = tableType)).map _ = _
    rw [filter_append_shaders htype, hnone, List.nil_append]
  · cases t with
    | shaderInfos type =>
      have hne : type ≠ tableType := fun heq => ht (heq ▸ rfl)
      show ((info.shaderInfos ++ shaders).filter (·.tableType = type)).map _ = _
      have hnil : shaders.filter (·.tableType = type) = [] :=
        List.filter_eq_nil_iff.mpr fun shader hshader => by
        rw [htype shader hshader, decide_eq_true_eq]
        exact hne.symm
      rw [List.filter_append, hnil, List.append_nil]
      rfl
    | _ => rfl

theorem shadersRead_step {types : List Word} (h : ShadersRead info info' types)
    (hparse : parseRuntimeDataShaderInfoTable info' tableType size = some info'') :
    ShadersRead info info'' (tableType :: types) := by
  obtain ⟨shaders, htable, hinfo⟩ := Option.bind_eq_some_iff.mp hparse
  cases hinfo
  have htype : ∀ shader ∈ shaders, shader.tableType = tableType := fun shader hshader => by
    obtain ⟨table, -, i, -, hread⟩ := read_of_parseTable htable hshader
    exact (readsShader hread).tableType
  have hnumber : ∀ shader ∈ shaders, shader.recordIndex.toNat < shaders.length :=
    fun shader hshader =>
    number_of_parseTable (fun shader => shader.recordIndex.toNat) htable
        (fun table i shader hread => by
      rw [(readsShader hread).recordIndex, BitVec.toNat_ofNat]
      exact Nat.mod_le _ _) hshader
  refine ⟨?_, ?_, ?_⟩
  · rw [h.others]
  · intro shader hshader
    rw [InTable, length_store_shaderInfos]
    dsimp only
    rcases List.mem_append.mp hshader with hshader | hshader
    · have hbefore := h.numbered shader hshader
      rw [InTable, length_store_shaderInfos] at hbefore
      rw [List.filter_append, List.length_append]
      exact Nat.lt_add_right _ hbefore
    · rw [htype shader hshader, filter_append_shaders htype, List.length_append]
      exact Nat.lt_add_left _ (hnumber shader hshader)
  · intro shader hshader
    rcases List.mem_append.mp hshader with hshader | hshader
    · exact List.mem_cons_of_mem _ (h.types shader hshader)
    · rw [htype shader hshader]
      exact List.mem_cons_self

/-- The run over the tables. -/
theorem shaderInfos_run {tables : List (Word × Nat)} {types : List Word}
    (hread : ShadersRead info info' types) (h : Built info'.store filled)
    (hnew : ∀ table ∈ tables, RdatTable.shaderInfos table.1 ∉ filled)
    (hdistinct : (tables.map Prod.fst).Nodup)
    (hrun : tables.foldlM (fun info table => parseRuntimeDataShaderInfoTable info table.1 table.2)
      info' =
      some info'') :
    ShadersRead info info'' ((tables.map Prod.fst).reverse ++ types) ∧
      Built info''.store ((tables.map fun table => .shaderInfos table.1).reverse ++ filled) := by
  induction tables generalizing info' types filled with
  | nil =>
    cases hrun
    exact ⟨hread, h⟩
  | cons table tables ih =>
    obtain ⟨next, hstep, hrest⟩ := Option.bind_eq_some_iff.mp hrun
    rw [List.map_cons, List.nodup_cons] at hdistinct
    have hnext := ih (shadersRead_step hread hstep)
      (built_shaderInfos h (hnew table List.mem_cons_self) hstep)
      (fun other hother hmem => by
        rcases List.mem_cons.mp hmem with heq | hmem
        · exact hdistinct.1 (RdatTable.shaderInfos.inj heq ▸ List.mem_map_of_mem hother)
        · exact hnew other (List.mem_cons_of_mem _ hother) hmem) hdistinct.2 hrest
    rw [List.map_cons, List.map_cons, List.reverse_cons, List.reverse_cons, List.append_assoc,
      List.append_assoc]
    exact hnext

end Shaders

/-! ## All tables -/

/-- The tables of the shaders are filled one after the other. -/
theorem parse_shaderInfoTables {info info' : RuntimeDataInfo} {filled : List RdatTable}
    (h : Built info.store filled) (hnone : info.shaderInfos = [])
    (hnew : ∀ table ∈ shaderInfoTables, RdatTable.shaderInfos table.1 ∉ filled)
    (hparse : parseRuntimeDataShaderInfoTables info = some info') :
    ShadersRead info info' (shaderInfoTables.map Prod.fst).reverse ∧
      Built info'.store ((shaderInfoTables.map fun table =>
        .shaderInfos table.1).reverse ++ filled) := by
  have hsame : { info with shaderInfos := [] } = info := by
    rw [← hnone]
  rw [parseRuntimeDataShaderInfoTables, hsame] at hparse
  have hstart : ShadersRead info info [] :=
    ⟨rfl, fun _ hshader => absurd (hnone ▸ hshader) List.not_mem_nil,
      fun _ hshader => absurd (hnone ▸ hshader) List.not_mem_nil⟩
  have hrun := shaderInfos_run hstart h hnew (by decide) hparse
  rw [List.append_nil] at hrun
  exact hrun

/-- What is known when all tables are read. The tables before that of the functions are those of
`before`. -/
structure TablesRead (parts : List RuntimeDataPartInfo) (before info : RuntimeDataInfo) : Prop where
  closed : Closed info.store
  parts : before.parts = parts
  functions : parseTable before Rdat.functionTable kRdatFunctionRecordSize []
    (parseFunction before) =
    some info.functions
  shaderInfos : info.shaderInfos = before.shaderInfos
  types : ∀ shader ∈ before.shaderInfos, shader.tableType ∈ shaderInfoTables.map Prod.fst

theorem coreTables_read {version partCount : Word} {parts : List RuntimeDataPartInfo}
    {info : RuntimeDataInfo}
    (hparse : parseRuntimeDataCoreTables { version := version, partCount := partCount, parts :=
      parts } =
      some info) : ∃ before, TablesRead parts before info := by
  have h : Built (RuntimeDataInfo.store
      { version := version, partCount := partCount, parts := parts }) [] := by
    have hempty : RuntimeDataInfo.store
        { version := version, partCount := partCount, parts := parts } = fun _ => [] := by
      funext t
      cases t <;> rfl
    rw [hempty]
    exact Built.empty
  obtain ⟨info₁, h₁, hparse⟩ := Option.bind_eq_some_iff.mp hparse
  obtain ⟨info₂, h₂, hparse⟩ := Option.bind_eq_some_iff.mp hparse
  obtain ⟨info₃, h₃, hparse⟩ := Option.bind_eq_some_iff.mp hparse
  obtain ⟨info₄, h₄, hparse⟩ := Option.bind_eq_some_iff.mp hparse
  obtain ⟨info₅, h₅, hparse⟩ := Option.bind_eq_some_iff.mp hparse
  obtain ⟨info₆, h₆, hparse⟩ := Option.bind_eq_some_iff.mp hparse
  obtain ⟨info₇, h₇, hparse⟩ := Option.bind_eq_some_iff.mp hparse
  obtain ⟨info₈, h₈, hparse⟩ := Option.bind_eq_some_iff.mp hparse
  obtain ⟨info₉, h₉, hparse⟩ := Option.bind_eq_some_iff.mp hparse
  obtain ⟨info₁₀, h₁₀, hparse⟩ := Option.bind_eq_some_iff.mp hparse
  obtain ⟨info₁₁, h₁₁, hparse⟩ := Option.bind_eq_some_iff.mp hparse
  obtain ⟨info₁₂, h₁₂, h₁₃⟩ := Option.bind_eq_some_iff.mp hparse
  -- the tables are filled one after the other
  have b₁ := built_resources h (by decide) h₁
  have b₂ := built_subobjects b₁ (by decide) h₂
  have b₃ := built_nodeIds b₂ (by decide) h₃
  have b₄ := built_nodeFunctionAttributes b₃ (by decide) h₄
  have b₅ := built_nodeIoAttributes b₄ (by decide) h₅
  have b₆ := built_ioNodes b₅ (by decide) h₆
  have b₇ := built_nodeShaderInfos b₆ (by decide) h₇
  have b₈ := built_signatureElements b₇ (by decide) h₈
  have hbefore : info₈.parts = parts ∧ info₈.shaderInfos = [] ∧ info₈.functions = [] := by
    obtain ⟨_, -, e₁⟩ := Option.bind_eq_some_iff.mp h₁
    obtain ⟨_, -, e₂⟩ := Option.bind_eq_some_iff.mp h₂
    obtain ⟨_, -, e₃⟩ := Option.bind_eq_some_iff.mp h₃
    obtain ⟨_, -, e₄⟩ := Option.bind_eq_some_iff.mp h₄
    obtain ⟨_, -, e₅⟩ := Option.bind_eq_some_iff.mp h₅
    obtain ⟨_, -, e₆⟩ := Option.bind_eq_some_iff.mp h₆
    obtain ⟨_, -, e₇⟩ := Option.bind_eq_some_iff.mp h₇
    obtain ⟨_, -, e₈⟩ := Option.bind_eq_some_iff.mp h₈
    cases e₁
    cases e₂
    cases e₃
    cases e₄
    cases e₅
    cases e₆
    cases e₇
    cases e₈
    exact ⟨rfl, rfl, rfl⟩
  obtain ⟨hread, b₉⟩ := parse_shaderInfoTables b₈ hbefore.2.1 (by decide) h₉
  have b₁₀ := built_functions b₉ (by decide) hread.numbered h₁₀
  have b₁₁ := built_pdbSources b₁₀ (by decide) h₁₁
  have b₁₂ := built_pdbLibraries b₁₁ (by decide) h₁₂
  have b₁₃ := built_pdbInfos b₁₂ (by decide) h₁₃
  obtain ⟨functions, htable, e₁₀⟩ := Option.bind_eq_some_iff.mp h₁₀
  obtain ⟨_, -, e₁₁⟩ := Option.bind_eq_some_iff.mp h₁₁
  obtain ⟨_, -, e₁₂⟩ := Option.bind_eq_some_iff.mp h₁₂
  obtain ⟨_, -, e₁₃⟩ := Option.bind_eq_some_iff.mp h₁₃
  cases e₁₀
  cases e₁₁
  cases e₁₂
  cases e₁₃
  have hnone : info₉.functions = [] := by
    rw [hread.others]
    exact hbefore.2.2
  refine ⟨info₉, b₁₃.closed, ?_, ?_, rfl, fun shader hshader => ?_⟩
  · rw [hread.others]
    exact hbefore.1
  · rw [hnone] at htable
    exact htable
  · exact List.mem_reverse.mp (hread.types shader hshader)

end RuntimeData

end Dxmt
