import Mathlib.Algebra.Order.Ring.Nat
import Mathlib.Data.List.Basic
import Dxmt.RootSignature

/-!
# Limits of root signatures

A description is checked before it is cloned: the cost of its parameters is summed up in 32 bits. A
blob is only parsed. Root constants are stored in a vector that is resized to a size of 32 bits.

Headline: **`limits_iff`**: an accepted description is within the limits exactly when its exact cost
fits in 32 bits, an accepted blob exactly when the words it was parsed from are, and root constants
are stored within their vectors exactly when no record ends past the last offset of 32 bits.
-/

namespace Dxmt

namespace RootLimits

open RootSignature

variable {Range Descriptor : Type}

/-! ## What the limits are -/

/-- `D3D12_MAX_ROOT_COST`. -/
def maxRootCost : Nat := 64

/-- The cost of a parameter as a number. -/
def exactCost : RootParameterData Range Descriptor → Nat
  | .descriptorTable _ => 1
  | .constants32Bit constants => constants.num32BitValues.toNat + 1
  | .descriptor _ _ => 2
  | .other _ => 0

/-- The cost of the parameters, without wrapping. -/
def totalCost (parameters : List (RootParameter Range Descriptor)) : Nat :=
  (parameters.map fun parameter => exactCost parameter.data).sum

/-- No range of the table is empty, and not both samplers (type 3) and other descriptors are in it.
-/
structure TableFits (ranges : List (Word × Word)) : Prop where
  filled : ∀ range ∈ ranges, range.2 ≠ 0
  unmixed : ¬((∃ range ∈ ranges, range.1 = 3) ∧ ∃ range ∈ ranges, range.1 ≠ 3)

/-- The types of the ranges of a table with the numbers of their descriptors. -/
def tableRanges (type numDescriptors : Range → Word) :
    RootParameterData Range Descriptor → List (Word × Word)
  | .descriptorTable ranges => ranges.map fun range => (type range, numDescriptors range)
  | _ => []

/-- The cost and every table are within the limits. -/
structure WithinLimits (type numDescriptors : Range → Word)
    (parameters : List (RootParameter Range Descriptor)) : Prop where
  cost : totalCost parameters ≤ maxRootCost
  tables : ∀ parameter ∈ parameters, TableFits (tableRanges type numDescriptors parameter.data)

/-! ## Descriptions -/

theorem validateTable_iff (type numDescriptors : Range → Word) (ranges : List Range) :
    validateTable type numDescriptors ranges = true ↔
      TableFits (ranges.map fun range => (type range, numDescriptors range)) := by
  have hmem : ∀ p : Word × Word → Prop,
      (∃ range ∈ ranges.map fun range => (type range, numDescriptors range), p range) ↔
        ∃ range ∈ ranges, p (type range, numDescriptors range) := fun p => by
    simp only [List.mem_map, exists_exists_and_eq_and]
  simp only [validateTable, Bool.and_eq_true, List.all_eq_true, decide_eq_true_eq,
    Bool.not_eq_true', Bool.and_eq_false_iff, List.any_eq_false]
  constructor
  · rintro ⟨hfilled, hmixed⟩
    refine ⟨fun range hrange => ?_, ?_⟩
    · obtain ⟨source, hsource, rfl⟩ := List.mem_map.mp hrange
      exact hfilled source hsource
    · rintro ⟨hsampler, hother⟩
      obtain ⟨sampler, hs, hsamplerType⟩ := (hmem _).mp hsampler
      obtain ⟨other, ho, hotherType⟩ := (hmem _).mp hother
      rcases hmixed with hnone | hnone
      · exact hnone sampler hs hsamplerType
      · exact hnone other ho hotherType
  · rintro ⟨hfilled, hunmixed⟩
    refine ⟨fun range hrange => hfilled _ (List.mem_map_of_mem hrange), ?_⟩
    by_contra hboth
    obtain ⟨hsampler, hother⟩ := not_or.mp hboth
    push Not at hsampler hother
    exact hunmixed ⟨(hmem _).mpr hsampler, (hmem _).mpr hother⟩

/-- The sum in 32 bits is the exact one modulo `2 ^ 32`. -/
theorem foldl_add_toNat (costs : List Word) (start : Word) :
    (costs.foldl (· + ·) start).toNat = (start.toNat + (costs.map BitVec.toNat).sum) % 2 ^ 32 := by
  induction costs generalizing start with
  | nil => simp [Nat.mod_eq_of_lt start.isLt]
  | cons cost costs ih =>
    rw [List.foldl_cons, ih, List.map_cons, List.sum_cons, BitVec.toNat_add, Nat.mod_add_mod,
      Nat.add_assoc]

theorem rootCost_toNat {data : RootParameterData Range Descriptor} {cost : Word}
    (h : rootCost data = some cost) : cost.toNat % 2 ^ 32 = exactCost data % 2 ^ 32 := by
  cases data with
  | descriptorTable ranges => cases h; rfl
  | constants32Bit constants =>
    cases h
    simp [exactCost, BitVec.toNat_add]
  | descriptor type descriptor => cases h; rfl
  | other type => cases h

theorem sum_rootCost {parameters : List (RootParameter Range Descriptor)} {costs : List Word}
    (h : (parameters.mapM fun parameter => rootCost parameter.data) = some costs) :
    (costs.map BitVec.toNat).sum % 2 ^ 32 = totalCost parameters % 2 ^ 32 := by
  induction parameters generalizing costs with
  | nil =>
    cases h
    rfl
  | cons parameter parameters ih =>
    simp only [List.mapM_cons, Option.bind_eq_bind, Option.bind_eq_some_iff, Option.pure_def,
      Option.some.injEq] at h
    obtain ⟨cost, hcost, rest, hrest, rfl⟩ := h
    simp only [totalCost, List.map_cons, List.sum_cons]
    rw [Nat.add_mod, rootCost_toNat hcost, ih hrest, totalCost, ← Nat.add_mod]

theorem tableFits_nil : TableFits [] where
  filled _ hrange := absurd hrange List.not_mem_nil
  unmixed h := by
    obtain ⟨range, hrange, -⟩ := h.1
    exact absurd hrange List.not_mem_nil

/-- The checks on a description: only the sum of the costs is not the exact one. -/
theorem validateDesc_facts {type numDescriptors : Range → Word}
    {parameters : List (RootParameter Range Descriptor)}
    (h : validateDesc type numDescriptors parameters = true) :
    totalCost parameters % 2 ^ 32 ≤ maxRootCost ∧
      ∀ parameter ∈ parameters, TableFits (tableRanges type numDescriptors parameter.data) := by
  simp only [validateDesc, Bool.and_eq_true, List.all_eq_true] at h
  obtain ⟨htables, hcost⟩ := h
  refine ⟨?_, fun parameter hparameter => ?_⟩
  · cases hcosts : parameters.mapM fun parameter => rootCost parameter.data with
    | none => simp [hcosts] at hcost
    | some costs =>
      simp only [hcosts, decide_eq_true_eq, BitVec.le_def, foldl_add_toNat] at hcost
      have hsum := sum_rootCost hcosts
      simp only [BitVec.ofNat_eq_ofNat, BitVec.toNat_ofNat, Nat.zero_mod, Nat.zero_add] at hcost
      rw [maxRootCost, ← hsum]
      exact hcost
  · have htable := htables parameter hparameter
    revert htable
    cases parameter.data with
    | descriptorTable ranges => exact (validateTable_iff type numDescriptors ranges).mp
    | constants32Bit constants => exact fun _ => tableFits_nil
    | descriptor kind descriptor => exact fun _ => tableFits_nil
    | other kind => exact fun _ => tableFits_nil

/-- An accepted description is within the limits when its cost has not wrapped around. -/
theorem withinLimits_iff_of_validateDesc {type numDescriptors : Range → Word}
    {parameters : List (RootParameter Range Descriptor)}
    (h : validateDesc type numDescriptors parameters = true) :
    WithinLimits type numDescriptors parameters ↔ totalCost parameters < 2 ^ 32 := by
  obtain ⟨hcost, htables⟩ := validateDesc_facts h
  constructor
  · intro hlimits
    have hle := hlimits.cost
    rw [maxRootCost] at hle
    omega
  · intro hlt
    rw [Nat.mod_eq_of_lt hlt] at hcost
    exact ⟨hcost, htables⟩

/-! ## Blobs -/

/-- The offsets of the headers of the parameters in a part. -/
def headers (rts0 : List Byte) : List Nat :=
  (List.range (readU32 rts0 4).toNat).map fun i => (readU32 rts0 8).toNat + i * 12

/-- What the words at a header say the parameter costs. -/
def headerCost (rts0 : List Byte) (header : Nat) : Nat :=
  if readU32 rts0 header = 0 then 1
  else if readU32 rts0 header = 1 then (readU32 rts0 ((readU32 rts0 (header + 8)).toNat +
  8)).toNat + 1
  else 2

/-- The first two words of every range of the table at a header. -/
def headerRanges (rts0 : List Byte) (header : Nat) : List (Word × Word) :=
  if readU32 rts0 header = 0 then
    let table := (readU32 rts0 (header + 8)).toNat
    (List.range (readU32 rts0 table).toNat).map fun j =>
      let range := (readU32 rts0 (table + 4)).toNat + j * rangeSize (readU32 rts0 0)
      (readU32 rts0 range, readU32 rts0 (range + 4))
  else []

/-- The words of a part are within the limits. -/
structure Rts0Fits (rts0 : List Byte) : Prop where
  cost : ((headers rts0).map (headerCost rts0)).sum ≤ maxRootCost
  tables : ∀ header ∈ headers rts0, TableFits (headerRanges rts0 header)

theorem readParameter_facts {rts0 : List Byte} {header : Nat} {parameter : RootParameter1}
    (h : readParameter rts0 (readU32 rts0 0) header = some parameter) :
    exactCost parameter.data = headerCost rts0 header ∧
      tableRanges DescriptorRange1.rangeType DescriptorRange1.numDescriptors parameter.data =
        headerRanges rts0 header := by
  simp only [readParameter, Option.bind_eq_bind, Option.bind_eq_some_iff, Option.pure_def,
    Option.some.injEq] at h
  obtain ⟨data, hdata, rfl⟩ := h
  simp only [headerCost, headerRanges]
  unfold readParameterData at hdata
  split at hdata
  · next htable =>
    simp only [Option.bind_eq_bind, Option.bind_eq_some_iff, Option.pure_def,
      Option.some.injEq] at hdata
    obtain ⟨-, -, -, -, rfl⟩ := hdata
    rw [if_pos htable, if_pos htable]
    refine ⟨rfl, ?_⟩
    simp only [tableRanges, List.map_map]
    exact List.map_congr_left fun j _ => rfl
  · next htable =>
    rw [if_neg htable, if_neg htable]
    split at hdata
    · next hconstants =>
      simp only [Option.bind_eq_bind, Option.bind_eq_some_iff, Option.pure_def,
        Option.some.injEq] at hdata
      obtain ⟨-, -, rfl⟩ := hdata
      rw [if_pos hconstants]
      exact ⟨rfl, rfl⟩
    · next hconstants =>
      simp only [Option.bind_eq_bind, Option.bind_eq_some_iff, Option.pure_def,
        Option.some.injEq] at hdata
      obtain ⟨type, -, -, -, rfl⟩ := hdata
      rw [if_neg hconstants]
      exact ⟨rfl, rfl⟩

theorem readParameters_facts {rts0 : List Byte} {indices : List Nat} {start : Nat}
    {parameters : List RootParameter1}
    (h : (indices.mapM fun i => readParameter rts0 (readU32 rts0 0) (start + i * 12)) =
    some parameters) :
    parameters.map (fun parameter => (exactCost parameter.data,
        tableRanges DescriptorRange1.rangeType DescriptorRange1.numDescriptors parameter.data)) =
      indices.map fun i => (headerCost rts0 (start + i * 12), headerRanges rts0 (start +
        i * 12)) := by
  induction indices generalizing parameters with
  | nil =>
    cases h
    rfl
  | cons i indices ih =>
    simp only [List.mapM_cons, Option.bind_eq_bind, Option.bind_eq_some_iff, Option.pure_def,
      Option.some.injEq] at h
    obtain ⟨parameter, hparameter, rest, hrest, rfl⟩ := h
    obtain ⟨hcost, hranges⟩ := readParameter_facts hparameter
    rw [List.map_cons, List.map_cons, hcost, hranges, ih hrest]

/-- The parameters of a part, as far as the limits go, are what the words of their headers say. -/
theorem parseRts0_parameters {rts0 : List Byte} {storage : RootSignatureStorage}
    (h : parseRts0 rts0 = some storage) :
    storage.parameters11.map (fun parameter => (exactCost parameter.data,
        tableRanges DescriptorRange1.rangeType DescriptorRange1.numDescriptors parameter.data)) =
      (headers rts0).map fun header => (headerCost rts0 header, headerRanges rts0 header) := by
  unfold parseRts0 at h
  split at h
  · cases h
  · simp only [Option.bind_eq_bind] at h
    split at h
    · cases h
    · simp only [Option.bind_eq_some_iff, Option.pure_def, Option.some.injEq] at h
      obtain ⟨-, -, -, -, parameters, hparameters, rfl⟩ := h
      rw [headers, List.map_map]
      exact readParameters_facts hparameters

/-- The parameters of a blob are within the limits exactly when its words are: nothing else is
looked at. -/
theorem withinLimits_iff_of_parse {blob : List Byte} {storage : RootSignatureStorage}
    (h : parseRootSignatureBlob blob = some storage) :
    WithinLimits DescriptorRange1.rangeType DescriptorRange1.numDescriptors storage.parameters11 ↔
      ∃ rts0, extractRts0Part blob = some rts0 ∧ Rts0Fits rts0 := by
  simp only [parseRootSignatureBlob, Option.bind_eq_bind, Option.bind_eq_some_iff] at h
  obtain ⟨rts0, hextract, hparse⟩ := h
  have hfacts := parseRts0_parameters hparse
  have hcosts := congrArg (List.map Prod.fst) hfacts
  have htables := congrArg (List.map Prod.snd) hfacts
  simp only [List.map_map, Function.comp_def] at hcosts htables
  have hcost : totalCost storage.parameters11 = ((headers rts0).map (headerCost rts0)).sum :=
    congrArg List.sum hcosts
  have hmem : ∀ ranges, (∃ parameter ∈ storage.parameters11,
      tableRanges DescriptorRange1.rangeType DescriptorRange1.numDescriptors parameter.data =
        ranges) ↔
      ∃ header ∈ headers rts0, headerRanges rts0 header = ranges := fun ranges => by
    simpa only [List.mem_map] using (congrArg (ranges ∈ ·) htables).to_iff
  constructor
  · intro hlimits
    refine ⟨rts0, hextract, hcost ▸ hlimits.cost, fun header hheader => ?_⟩
    obtain ⟨parameter, hparameter, hranges⟩ := (hmem _).mpr ⟨header, hheader, rfl⟩
    exact hranges ▸ hlimits.tables parameter hparameter
  · rintro ⟨part, hpart, hfits⟩
    cases hextract.symm.trans hpart
    refine ⟨hcost ▸ hfits.cost, fun parameter hparameter => ?_⟩
    obtain ⟨header, hheader, hranges⟩ := (hmem _).mp ⟨parameter, hparameter, rfl⟩
    exact hranges ▸ hfits.tables header hheader

/-! ## Root constants -/

/-- A record of one of the calls; their number of constants has 32 bits. -/
structure RootConstantsRecord where
  compute : Bool
  rootParameterIndex : Word
  dstOffset : Word
  values : List Word
  values_lt : values.length < 2 ^ 32

/-- The vectors of a `ReplayState` by the point they are bound to and the parameter. Their sizes
came out of a sum in 32 bits. -/
structure RootConstantValues where
  values : Bool → Word → List Word
  values_lt : ∀ compute index, (values compute index).length < 2 ^ 32

/-- `values.size() < required_size ? values.resize(required_size, 0) : values`. -/
def resized (values : List Word) (requiredSize : Word) : List Word :=
  values ++ List.replicate (requiredSize.toNat - values.length) 0

theorem resized_lt {values : List Word} (h : values.length < 2 ^ 32) (requiredSize : Word) :
    (resized values requiredSize).length < 2 ^ 32 := by
  have hsize := requiredSize.isLt
  simp only [resized, List.length_append, List.length_replicate]
  omega

/-- `std::copy` of `source` to an offset: `none` when it goes past the end. -/
def copyTo (values source : List Word) (offset : Nat) : Option (List Word) :=
  if offset + source.length ≤ values.length then
    some (values.take offset ++ source ++ values.drop (offset + source.length))
  else none

theorem length_copyTo {values source copied : List Word} {offset : Nat}
    (h : copyTo values source offset = some copied) : copied.length = values.length := by
  unfold copyTo at h
  split at h
  · next hle =>
    cases h
    simp only [List.length_append, List.length_take, List.length_drop]
    omega
  · cases h

namespace RootConstantsRecord

variable (record : RootConstantsRecord)

/-- The size that the values are resized to, in 32 bits. -/
def requiredSize : Word := record.dstOffset + BitVec.ofNat 32 record.values.length

/-- The constants end at an offset of 32 bits. -/
def Fits : Prop := record.dstOffset.toNat + record.values.length < 2 ^ 32

end RootConstantsRecord

/-- `StoreRootConstants`: `none` when it copies past the end. -/
def storeRootConstants (state : RootConstantValues) (record : RootConstantsRecord) :
    Option RootConstantValues :=
  let values := resized (state.values record.compute record.rootParameterIndex) record.requiredSize
  match h : copyTo values record.values record.dstOffset.toNat with
  | none => none
  | some copied =>
    some
      { values := fun compute index =>
          if compute = record.compute ∧ index = record.rootParameterIndex then copied
          else state.values compute index
        values_lt := fun compute index => by
          split
          · rw [length_copyTo h]
            exact resized_lt (state.values_lt _ _) _
          · exact state.values_lt compute index }

/-- One record after the other. -/
def replayRootConstants (state : RootConstantValues) (records : List RootConstantsRecord) :
    Option RootConstantValues :=
  records.foldlM storeRootConstants state

/-- The size that is asked for is too small exactly when it has wrapped around. -/
theorem copyTo_resized_isSome_iff (record : RootConstantsRecord) {values : List Word}
    (h : values.length < 2 ^ 32) :
    (copyTo (resized values record.requiredSize) record.values record.dstOffset.toNat).isSome ↔
    record.Fits := by
  have hvalues := record.values_lt
  have hoffset := record.dstOffset.isLt
  have hrequired : record.requiredSize.toNat =
      (record.dstOffset.toNat + record.values.length) % 2 ^ 32 := by
    rw [RootConstantsRecord.requiredSize, BitVec.toNat_add, BitVec.toNat_ofNat, Nat.add_mod_mod]
  have hlength : (resized values record.requiredSize).length =
      max values.length ((record.dstOffset.toNat + record.values.length) % 2 ^ 32) := by
    simp only [resized, List.length_append, List.length_replicate, hrequired]
    omega
  unfold copyTo
  rw [hlength, RootConstantsRecord.Fits]
  split
  · simp only [Option.isSome_some, true_iff]
    omega
  · simp only [Option.isSome_none, Bool.false_eq_true, false_iff]
    omega

theorem storeRootConstants_isSome_iff (state : RootConstantValues) (record : RootConstantsRecord) :
    (storeRootConstants state record).isSome ↔ record.Fits := by
  rw [← copyTo_resized_isSome_iff record (state.values_lt record.compute record.rootParameterIndex)]
  simp only [storeRootConstants]
  split
  · next hnone => simp [hnone]
  · next hsome => exact iff_of_true rfl (Option.isSome_of_eq_some hsome)

/-- The first record that does not fit is where the run goes past the end. -/
theorem replayRootConstants_isSome_iff (state : RootConstantValues)
    (records : List RootConstantsRecord) :
    (replayRootConstants state records).isSome ↔ ∀ record ∈ records, record.Fits := by
  induction records generalizing state with
  | nil => simp [replayRootConstants]
  | cons record records ih =>
    rw [List.forall_mem_cons, ← storeRootConstants_isSome_iff state record, replayRootConstants,
      List.foldlM_cons]
    cases hstore : storeRootConstants state record with
    | none => simp
    | some next =>
      simp only [Option.isSome_some, true_and]
      exact ih next

/-! ## All of them -/

/-- Accepted descriptions and blobs and what is replayed stay within the limits exactly when nothing
wraps around and, for a blob, its words are within the limits. -/
theorem limits_iff (parameters0 : List RootParameter0) (parameters1 : List RootParameter1)
    (blob : List Byte) (state : RootConstantValues) (records : List RootConstantsRecord) :
    (validateDesc DescriptorRange0.rangeType DescriptorRange0.numDescriptors parameters0 = true →
      (WithinLimits DescriptorRange0.rangeType DescriptorRange0.numDescriptors parameters0 ↔
        totalCost parameters0 < 2 ^ 32)) ∧
    (validateDesc DescriptorRange1.rangeType DescriptorRange1.numDescriptors parameters1 = true →
      (WithinLimits DescriptorRange1.rangeType DescriptorRange1.numDescriptors parameters1 ↔
        totalCost parameters1 < 2 ^ 32)) ∧
    (∀ storage, parseRootSignatureBlob blob = some storage →
      (WithinLimits DescriptorRange1.rangeType DescriptorRange1.numDescriptors
        storage.parameters11 ↔
        ∃ rts0, extractRts0Part blob = some rts0 ∧ Rts0Fits rts0)) ∧
    ((replayRootConstants state records).isSome ↔ ∀ record ∈ records, record.Fits) :=
  ⟨withinLimits_iff_of_validateDesc, withinLimits_iff_of_validateDesc,
    fun _ => withinLimits_iff_of_parse, replayRootConstants_isSome_iff state records⟩

/-- One parameter with that many constants. -/
def constantsParameter (num32BitValues : Word) : RootParameter0 where
  shaderVisibility := 0
  data := .constants32Bit ⟨0, 0, num32BitValues⟩

/-- A part of version 1.0 with one parameter of 64 constants, the header at byte 24 and the data at
36. -/
def constantsBlob : List Byte :=
  encodeWords [1, 1, 24, 0, 24, 0, 1, 0, 36, 0, 0, 64]

/-- No values anywhere. -/
def noRootConstants : RootConstantValues where
  values _ _ := []
  values_lt _ _ := by decide

/-- One constant at the last offset. -/
def lastConstant : RootConstantsRecord where
  compute := false
  rootParameterIndex := 0
  dstOffset := 0xffffffff
  values := [7]
  values_lt := by decide

/-- A description whose cost wraps around to zero is accepted, a blob is without a look at its cost,
and a constant at the last offset is stored past the end of an empty vector. -/
theorem limits_missed :
    (validateDesc DescriptorRange0.rangeType DescriptorRange0.numDescriptors
        [constantsParameter 0xffffffff] = true ∧
      ¬WithinLimits DescriptorRange0.rangeType DescriptorRange0.numDescriptors
        [constantsParameter 0xffffffff]) ∧
    ((parseRootSignatureBlob constantsBlob).isSome ∧ ∀ storage,
      parseRootSignatureBlob constantsBlob = some storage →
      ¬WithinLimits DescriptorRange1.rangeType DescriptorRange1.numDescriptors
      storage.parameters11) ∧
    replayRootConstants noRootConstants [lastConstant] = none := by
  refine ⟨⟨by decide, fun h => absurd h.cost (by decide)⟩,
      ⟨by decide, fun storage hparse hlimits => ?_⟩, ?_⟩
  · have hcost : (parseRootSignatureBlob constantsBlob).map (fun storage =>
        totalCost storage.parameters11) =
        some 65 := by decide
    rw [hparse, Option.map_some, Option.some.injEq] at hcost
    have hle := hlimits.cost
    rw [hcost] at hle
    exact absurd hle (by decide)
  · rw [← Option.not_isSome_iff_eq_none, replayRootConstants_isSome_iff]
    intro hfits
    exact absurd (hfits lastConstant (List.mem_singleton_self _))
      (by simp only [RootConstantsRecord.Fits, lastConstant]; decide)

end RootLimits

end Dxmt
