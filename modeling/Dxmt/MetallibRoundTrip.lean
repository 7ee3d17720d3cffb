import Dxmt.Metallib
import Mathlib.Data.List.Forall2

/-!
# Reading back a metal library

* The functions of all stages are written alike (`writeFunctions_eq`), each as one entry and two
  records.
* One size stands in front of all entries, where the reader takes one for each. So a file reads back
  exactly if its module has one function, and its attributes fit (`readsBack_iff`).
-/

namespace Dxmt

namespace Metallib

open ByteFormat

/-! ## Attributes as they are written -/

/-- What is written of an attribute. -/
def attributeBytes (vattr : Attribute) : List Byte :=
  vattr.name ++ [0] ++ (littleEndian 1 vattr.location ++ littleEndian 1 128)

/-- The attributes behind their number. -/
def attributesBytes (attributes : List Attribute) : List Byte :=
  littleEndian 2 attributes.length ++ attributes.flatMap attributeBytes

/-- The bytes of the attribute types. -/
def typesBytes (attributes : List Attribute) : List Byte :=
  littleEndian 2 attributes.length ++ attributes.flatMap fun vattr => littleEndian 1 vattr.type

/-- The public metadata of a function with these attributes. -/
def publicMetadataBytes (attributes : List Attribute) : List Byte :=
  if attributes = [] then MTLBFourCC.endTag
  else MTLBFourCC.vertexAttribute ++ littleEndian 2 (attributesBytes attributes).length ++
    attributesBytes attributes ++ (MTLBFourCC.vertexAttributeType ++
      littleEndian 2 (typesBytes attributes).length ++ typesBytes attributes) ++ MTLBFourCC.endTag

theorem patchU16_append (front back : List Byte) (value value' : Nat) :
    patchU16 (front ++ littleEndian 2 value ++ back) front.length value' =
      front ++ littleEndian 2 value' ++ back := by
  have hlength : (front ++ littleEndian 2 value).length = front.length + 2 := by
    rw [List.length_append, length_littleEndian]
  unfold patchU16
  rw [← hlength, List.drop_left, List.append_assoc front, List.take_left]

/-- One byte for each. -/
theorem flatMap_byte {α : Type} (values : List α) (f : α → Nat) :
    values.flatMap (fun value => littleEndian 1 (f value)) = values.map fun value =>
      BitVec.ofNat 8 (f value) :=
  (List.map_eq_flatMap ..).symm

theorem length_typesBytes (attributes : List Attribute) :
    (typesBytes attributes).length = 2 + attributes.length := by
  rw [typesBytes, List.length_append, length_littleEndian, flatMap_byte, List.length_map]

theorem attributeBytes_record (input : InputElement) :
    input.inputAttribute.name ++ [0] ++ vaty input.inputAttribute.attributeIndex 0 1 =
      attributeBytes input.record := by
  unfold attributeBytes InputElement.record InputElement.inputAttribute
  rw [← BitVec.ofNat_toNat]
  rfl

/-- The type of an attribute is a byte. -/
theorem type_record (input : InputElement) :
    input.inputAttribute.type = BitVec.ofNat 8 input.record.type := by
  have htypes : ∀ type : AttributeType,
      (if type.typeName = text "float4" then (0x06 : Byte)
        else if type.typeName = text "uint4" then 0x24
        else 0x20) = BitVec.ofNat 8 type.code := by
    intro type
    cases type <;> decide
  exact htypes input.type

/-- The public metadata is the attributes and their types. -/
theorem vertexPublicMetadata_eq (attributes : List InputElement) :
    vertexPublicMetadata (attributes.map (·.inputAttribute)) =
      publicMetadataBytes (attributes.map (·.record)) := by
  have hbytes : (attributes.map (·.inputAttribute)).flatMap
        (fun vattr => vattr.name ++ [0] ++ vaty vattr.attributeIndex 0 1) =
      (attributes.map (·.record)).flatMap attributeBytes := by
    rw [List.flatMap_map, List.flatMap_map]
    exact List.flatMap_congr fun input _ => attributeBytes_record input
  have htypes : (attributes.map (·.inputAttribute)).map (·.type) =
      (attributes.map (·.record)).flatMap fun vattr => littleEndian 1 vattr.type := by
    rw [flatMap_byte, List.map_map, List.map_map]
    exact List.map_congr_left fun input _ => type_record input
  unfold vertexPublicMetadata publicMetadataBytes
  rw [hbytes, htypes, List.length_map]
  by_cases hnone : attributes = []
  · subst hnone
    rfl
  · have hlength : attributes.length ≠ 0 := fun h => hnone (List.eq_nil_of_length_eq_zero h)
    have hrecords : attributes.map (·.record) ≠ [] := fun h => hnone (List.map_eq_nil_iff.mp h)
    rw [if_pos hlength, if_neg hrecords]
    dsimp only
    have hsize : (MTLBFourCC.vertexAttribute ++ littleEndian 2 0 ++
        attributesBytes (attributes.map (·.record))).length - MTLBFourCC.vertexAttribute.length -
          2 =
          (attributesBytes (attributes.map (·.record))).length := by
      rw [List.length_append, List.length_append, length_littleEndian]
      omega
    rw [length_typesBytes, List.length_map]
    unfold attributesBytes at hsize ⊢
    rw [List.length_map] at hsize ⊢
    rw [List.append_assoc (MTLBFourCC.vertexAttribute ++ littleEndian 2 0), hsize, patchU16_append]
    unfold typesBytes
    rw [List.length_map]
    simp only [List.append_assoc]

/-! ## Entries as they are written -/

theorem encode_tags_nil : tags.encode [] = MTLBFourCC.endTag :=
  rfl

theorem encode_tags_cons (tag : Tag) (others : List Tag) :
    tags.encode (tag :: others) =
      tag.1 ++ (littleEndian 2 tag.2.length ++ (tag.2 ++ tags.encode others)) := by
  show encodeTagged (block 2) (tag :: others) ++ MTLBFourCC.endTag = _
  rw [encodeTagged, List.flatMap_cons]
  show tag.1 ++ (littleEndian 2 tag.2.length ++ tag.2) ++ encodeTagged (block 2) others ++ _ = _
  simp only [List.append_assoc]
  rfl

/-- The tag of a patch. -/
def patchBytes : Option Nat → List Byte
  | none => []
  | some patchType => MTLBFourCC.tess ++ (littleEndian 2 1 ++ littleEndian 1 patchType)

/-- The patch is the tag of its type. -/
theorem writePatch_eq (patchTuple : Option (List (Option Text))) :
    writePatch patchTuple = patchBytes (patchTypeOf patchTuple) := by
  unfold writePatch patchTypeOf
  split
  · split
    · split <;> rfl
    · rfl
  · rfl

/-- The tags of a patch. -/
theorem encode_patchTags (patchType : Option Nat) :
    tags.encode (patchTags patchType) = patchBytes patchType ++ MTLBFourCC.endTag := by
  cases patchType <;> rfl

section Entries

variable (hash : Sha256Hash) (bitcodeSize : Nat)

/-- A function is written, whatever its stage. -/
def writeRecord (s : Streams) (function : FunctionRecord) : Streams where
  functionDef := s.functionDef ++ tags.encode
    (function.tags hash.1 bitcodeSize [s.publicMetadata.length, s.privateMetadata.length, 0])
  publicMetadata := s.publicMetadata ++
    (littleEndian 4 (publicMetadataBytes function.attributes).length ++
    publicMetadataBytes function.attributes)
  privateMetadata := s.privateMetadata ++ (littleEndian 4 4 ++ MTLBFourCC.endTag)
  fnCount := s.fnCount + 1

/-- An entry is its tags. -/
theorem writeEntry_eq (s : Streams) (function : FunctionRecord) :
    writeEntry hash bitcodeSize s function.type function.name (patchBytes function.patchType)
      (publicMetadataBytes function.attributes) = writeRecord hash bitcodeSize s function := by
  have hoffsets : (encodeFields [8, 8, 8] [s.publicMetadata.length, s.privateMetadata.length,
      0]).length =
      0x18 := rfl
  have hversion : (encodeFields [2, 2, 2, 2] [2, 6, 3, 1]).length = 0x08 := rfl
  unfold writeEntry writeRecord FunctionRecord.tags typeTag hashTag mdszTag offtTag versTag
  congr 2
  simp only [List.cons_append, List.nil_append, encode_tags_cons, encode_patchTags,
    List.length_append, List.length_singleton, length_littleEndian, hash.2, hoffsets, hversion,
      List.append_assoc]
  rfl

/-- **The functions of all stages** are written one after the other. -/
theorem writeFunctions_eq (computeSha256Hash : List Byte → Sha256Hash) (m : Module) :
    writeFunctions computeSha256Hash m =
      m.functions.foldl (writeRecord (computeSha256Hash m.bitcode) m.bitcode.length) {} := by
  have hvertex : writeVertexFunction (computeSha256Hash m.bitcode) m.bitcode.length =
      fun s fn => writeRecord (computeSha256Hash m.bitcode) m.bitcode.length s fn.record := by
    funext s fn
    rw [← writeEntry_eq, writeVertexFunction, writePatch_eq, vertexPublicMetadata_eq]
    rfl
  have hplain : ∀ type, (fun s (fn : Function) =>
      writeEntry (computeSha256Hash m.bitcode) m.bitcode.length s
      type fn.name [] MTLBFourCC.endTag) =
        fun s fn => writeRecord (computeSha256Hash m.bitcode) m.bitcode.length s
          (fn.record type) := by
    intro type
    funext s fn
    rw [← writeEntry_eq]
    rfl
  have hfragment : writeFragmentFunction (computeSha256Hash m.bitcode) m.bitcode.length = _ :=
    hplain .fragment
  have hkernel : writeKernelFunction (computeSha256Hash m.bitcode) m.bitcode.length = _ :=
    hplain .kernel
  have hobject : writeObjectFunction (computeSha256Hash m.bitcode) m.bitcode.length = _ :=
    hplain .object
  have hmesh : writeMeshFunction (computeSha256Hash m.bitcode) m.bitcode.length = _ := hplain .mesh
  unfold writeFunctions Module.functions
  dsimp only
  rw [hvertex, hfragment, hkernel, hobject, hmesh]
  simp only [List.foldl_append, List.foldl_map]

end Entries

/-! ## Sizes -/

/-- The bytes of the tags of a function. -/
def FunctionRecord.entrySize (function : FunctionRecord) : Nat :=
  function.name.length + 110 + (patchBytes function.patchType).length + 4

theorem length_encode_tags (function : FunctionRecord) (hash : Sha256Hash)
    (bitcodeSize a b c : Nat) :
    (tags.encode (function.tags hash.1 bitcodeSize [a, b, c])).length = function.entrySize := by
  have hoffsets : (encodeFields [8, 8, 8] [a, b, c]).length = 0x18 := rfl
  have hversion : (encodeFields [2, 2, 2, 2] [2, 6, 3, 1]).length = 0x08 := rfl
  have hfour : ∀ ch0 ch1 ch2 ch3, (mtlbFourCC ch0 ch1 ch2 ch3).length = 4 := fun _ _ _ _ => rfl
  unfold FunctionRecord.tags FunctionRecord.entrySize
  simp only [List.cons_append, List.nil_append, encode_tags_cons, encode_patchTags,
    List.length_append, List.length_singleton, length_littleEndian, hash.2, hoffsets, hversion,
      MTLBFourCC.name, MTLBFourCC.type,
    MTLBFourCC.hash, MTLBFourCC.size, MTLBFourCC.offset, MTLBFourCC.version, MTLBFourCC.endTag,
      hfour]
  clear hoffsets hversion hfour
  omega

theorem length_functionDef (hash : Sha256Hash) (bitcodeSize : Nat) (functions : List FunctionRecord)
    (s : Streams) :
    (functions.foldl (writeRecord hash bitcodeSize) s).functionDef.length =
      s.functionDef.length + (functions.map (·.entrySize)).sum := by
  induction functions generalizing s with
  | nil => rfl
  | cons function functions ih =>
    rw [List.foldl_cons, ih, writeRecord, List.length_append, length_encode_tags, List.map_cons,
      List.sum_cons, Nat.add_assoc]

/-! ## One size in front of all entries -/

theorem slice_eq_some {bytes : List Byte} {offset size : Nat} {value : List Byte}
    (h : slice bytes offset size = some value) : value.length = size := by
  unfold slice at h
  split at h
  · cases h
    rw [List.length_take, List.length_drop]
    omega
  · cases h

/-- The entries that are read fill the function list. -/
theorem length_of_readFile {bytes : List Byte} {file : File} (h : readFile bytes = some file) :
    ∃ values rest header, readFields MTLBHeader.widths bytes = some (values, rest) ∧
      MTLBHeader.ofValues values = some header ∧
      (file.functions.flatMap entry.encode).length = header.functionListSize := by
  unfold readFile at h
  obtain ⟨⟨values, rest⟩, hvalues, h⟩ := Option.bind_eq_some_iff.mp h
  obtain ⟨header, hheader, h⟩ := Option.bind_eq_some_iff.mp h
  refine ⟨values, rest, header, hvalues, hheader, ?_⟩
  split at h
  · cases h
  obtain ⟨list, hlist, h⟩ := Option.bind_eq_some_iff.mp h
  obtain ⟨⟨count, entries⟩, hcount, h⟩ := Option.bind_eq_some_iff.mp h
  obtain ⟨functions, hfunctions, h⟩ := Option.bind_eq_some_iff.mp h
  obtain ⟨extended, -, h⟩ := Option.bind_eq_some_iff.mp h
  obtain ⟨publicMetadata, -, h⟩ := Option.bind_eq_some_iff.mp h
  obtain ⟨privateMetadata, -, h⟩ := Option.bind_eq_some_iff.mp h
  obtain ⟨bitcode, -, h⟩ := Option.map_eq_some_iff.mp h
  cases h
  have hlength := slice_eq_some hlist
  obtain ⟨-, hbytes⟩ := readWord_iff.mp hcount
  obtain ⟨-, hentries⟩ := Format.whole_iff.mp hfunctions
  rw [hbytes, List.length_append, length_littleEndian] at hlength
  rw [show functions.flatMap entry.encode = entries from hentries.symm]
  omega

/-- The header is read back. -/
theorem readHeader (m : Module) (computeSha256Hash : List Byte → Sha256Hash) :
    ∃ rest, readFields MTLBHeader.widths (write computeSha256Hash m) =
      some (List.zipWith (fun width value => value % 256 ^ width) MTLBHeader.widths
        (makeHeader (writeFunctions computeSha256Hash m) m.bitcode.length).values, rest) :=
  ⟨_, @readFields_encodeFields MTLBHeader.widths
    (makeHeader (writeFunctions computeSha256Hash m) m.bitcode.length).values rfl _⟩

/-- An entry that describes a function has its size. -/
theorem length_entry {file : File} {hash : Sha256Hash} {function : FunctionRecord} {tags : List Tag}
    (h : function.ReadFrom file hash.1 tags) :
    (entry.encode tags).length = 4 + function.entrySize := by
  obtain ⟨publicOffset, privateOffset, -, rfl, -⟩ := h
  show (littleEndian 4 _ ++ Metallib.tags.encode _).length = _
  rw [List.length_append, length_littleEndian, length_encode_tags]

theorem length_entries {file : File} {hash : Sha256Hash} {functions : List FunctionRecord}
    {entries : List (List Tag)}
    (h : List.Forall₂ (FunctionRecord.ReadFrom file hash.1) functions entries) :
    (entries.flatMap entry.encode).length = 4 * functions.length +
    (functions.map (·.entrySize)).sum := by
  induction h with
  | nil => rfl
  | cons hread _ ih =>
    rw [List.flatMap_cons, List.length_append, length_entry hread, ih, List.length_cons,
      List.map_cons, List.sum_cons]
    omega

/-- **Only the entry of a single function** has the size that stands in front of it. -/
theorem length_functions {computeSha256Hash : List Byte → Sha256Hash} {m : Module}
    (h : ReadsBack computeSha256Hash m) : m.functions.length = 1 := by
  obtain ⟨file, hread, -, hfunctions⟩ := h
  obtain ⟨values, rest, header, hvalues, hheader, hlength⟩ := length_of_readFile hread
  obtain ⟨rest', hwritten⟩ := readHeader m computeSha256Hash
  cases hvalues.symm.trans hwritten
  cases hheader
  rw [length_entries hfunctions] at hlength
  have hsize : (writeFunctions computeSha256Hash m).functionDef.length =
      (m.functions.map (·.entrySize)).sum := by
    rw [writeFunctions_eq, length_functionDef, List.length_nil, Nat.zero_add]
  change _ = ((writeFunctions computeSha256Hash m).functionDef.length + 4) % 256 ^ 8 at hlength
  rw [hsize] at hlength
  have hle := Nat.mod_le ((m.functions.map (·.entrySize)).sum + 4) (256 ^ 8)
  cases hm : m.functions with
  | nil =>
    rw [hm] at hlength
    exact absurd hlength (by decide)
  | cons function functions =>
    rw [hm, List.length_cons] at hlength
    rw [hm] at hle
    rw [List.length_cons]
    omega

/-! ## What metadata can say -/

/-- A tag that is found is in the list. -/
theorem findTag_eq_some {tag payload : List Byte} {tags : List Tag}
    (h : findTag tag tags = some payload) :
    (tag, payload) ∈ tags := by
  obtain ⟨found, hfound, rfl⟩ := Option.map_eq_some_iff.mp h
  have htag := List.find?_some hfound
  rw [decide_eq_true_eq] at htag
  rw [← htag]
  exact List.mem_of_find?_eq_some hfound

theorem length_vertexAttributes (items : List (Text × Nat × Nat)) :
    (vertexAttributes.encode items).length = 2 + (items.map fun item => item.1.length + 3).sum := by
  show (littleEndian 2 items.length ++ items.flatMap fun item : Text × Nat × Nat =>
    item.1 ++ [0] ++ (littleEndian 1 item.2.1 ++ littleEndian 1 item.2.2)).length = _
  rw [List.length_append, length_littleEndian, List.length_flatMap]
  congr 2
  refine List.map_congr_left fun item _ => ?_
  rw [List.length_append, List.length_append, List.length_append, length_littleEndian,
    length_littleEndian]
  rfl

/-- The names and locations are those of the items, whatever the types are. -/
theorem map_zipWith_items {items : List (Text × Nat × Nat)} {types : List Nat}
    (h : items.length = types.length) :
    (List.zipWith (fun item type => (⟨item.1, item.2.1, type⟩ : Attribute)) items types).map
      (fun vattr => (vattr.name, vattr.location)) = items.map fun item => (item.1, item.2.1) := by
  induction items generalizing types with
  | nil => rfl
  | cons item items ih =>
    cases types with
    | nil => cases h
    | cons type types =>
      rw [List.zipWith_cons_cons, List.map_cons, List.map_cons, ih (Nat.succ.inj h)]

/-- What is read back has been written as it is. -/
theorem attributesFit_of_items {function : FunctionRecord} {items : List (Text × Nat × Nat)}
    {types : List Nat} (hvalid : vertexAttributes.Valid items)
    (hsize : (vertexAttributes.encode items).length < 65536) (hlength : items.length = types.length)
    (h : List.zipWith (fun item type => (⟨item.1, item.2.1, type⟩ : Attribute)) items types =
      function.attributes) : function.AttributesFit := by
  have hitems := map_zipWith_items hlength
  rw [h] at hitems
  constructor
  · intro vattr hvattr
    have hmem : (vattr.name, vattr.location) ∈ items.map fun item => (item.1, item.2.1) :=
      hitems ▸ List.mem_map_of_mem hvattr
    obtain ⟨item, hitem, heq⟩ := List.mem_map.mp hmem
    obtain ⟨hname, hlocation⟩ := Prod.mk.inj heq
    have hitem := hvalid.2 item hitem
    rw [← hname, ← hlocation]
    exact ⟨hitem.1, hitem.2.1⟩
  · have hsizes := congrArg (List.map fun vattr : Text × Nat => vattr.1.length + 3) hitems
    rw [List.map_map, List.map_map] at hsizes
    have hsum : (function.attributes.map fun vattr => vattr.name.length + 3) =
        items.map fun item => item.1.length + 3 := hsizes
    rw [hsum, ← length_vertexAttributes]
    exact hsize

/-- **What is read of metadata** fits. -/
theorem attributesFit_of_read {bytes : List Byte} {offset : Nat} {function : FunctionRecord}
    (h : (readMetadata bytes offset).bind readAttributes = some function.attributes) :
    function.AttributesFit := by
  obtain ⟨tags, hmetadata, h⟩ := Option.bind_eq_some_iff.mp h
  obtain ⟨⟨tags', rest⟩, hread, heq⟩ := Option.map_eq_some_iff.mp hmetadata
  cases heq
  obtain ⟨⟨hvalid, -⟩, -⟩ := metadata.read_iff.mp hread
  unfold readAttributes at h
  split at h
  · rw [FunctionRecord.AttributesFit, ← Option.some.inj h]
    exact ⟨fun _ hmem => absurd hmem List.not_mem_nil, by decide⟩
  · rename_i names types hnames htypes
    obtain ⟨items, hitems, hrest⟩ := Option.bind_eq_some_iff.mp h
    obtain ⟨codes, -, hzip⟩ := Option.bind_eq_some_iff.mp hrest
    split at hzip
    · rename_i hlength
      obtain ⟨hitemsValid, rfl⟩ := Format.whole_iff.mp hitems
      have hblock : (vertexAttributes.encode items).length < 256 ^ 2 :=
        (hvalid _ (findTag_eq_some hnames)).2.2
      exact attributesFit_of_items hitemsValid hblock hlength (Option.some.inj hzip)
    · cases hzip
  · cases h

/-! ## A single function -/

/-- What the types of a module bound. -/
structure FunctionRecord.Bounded (function : FunctionRecord) : Prop where
  name : function.name.length < 65535
  patchType : ∀ patchType, function.patchType = some patchType → patchType < 256
  types : ∀ vattr ∈ function.attributes, vattr.type < 256

/-- The functions of a module are within the widths of the format. -/
theorem bounded_functions (m : Module) {function : FunctionRecord} (h : function ∈ m.functions) :
    function.Bounded := by
  have hplain : ∀ (fns : List Function) (type : FunctionType), function ∈ fns.map (·.record type) →
      function.Bounded := by
    intro fns type hmem
    obtain ⟨fn, -, rfl⟩ := List.mem_map.mp hmem
    exact ⟨fn.name_lt, fun _ hnone => absurd hnone nofun, fun _ hnone =>
        absurd hnone List.not_mem_nil⟩
  unfold Module.functions at h
  rw [List.mem_append, List.mem_append, List.mem_append, List.mem_append] at h
  rcases h with (((h | h) | h) | h) | h
  · obtain ⟨fn, -, rfl⟩ := List.mem_map.mp h
    refine ⟨fn.name_lt, fun patchType hsome => ?_, fun vattr hvattr => ?_⟩
    · change patchTypeOf fn.patchTuple = some patchType at hsome
      unfold patchTypeOf at hsome
      split at hsome
      · split at hsome
        · cases hsome
          split <;> decide
        · cases hsome
      · cases hsome
    · obtain ⟨input, -, rfl⟩ := List.mem_map.mp hvattr
      show input.type.code < 256
      cases input.type <;> decide
  · exact hplain _ _ h
  · exact hplain _ _ h
  · exact hplain _ _ h
  · exact hplain _ _ h

section Attributes

variable {attributes : List Attribute}

/-- The tags of the vertex attributes. -/
def metadataTags (attributes : List Attribute) : List Tag :=
  if attributes = [] then []
  else [(MTLBFourCC.vertexAttribute, attributesBytes attributes),
    (MTLBFourCC.vertexAttributeType, typesBytes attributes)]

/-- The tags of the metadata are the metadata. -/
theorem encode_metadataTags (attributes : List Attribute) :
    tags.encode (metadataTags attributes) = publicMetadataBytes attributes := by
  unfold metadataTags publicMetadataBytes
  split
  · rfl
  · simp only [encode_tags_cons, encode_tags_nil, List.append_assoc]

/-- The items of the attributes, all of them active. -/
def items (attributes : List Attribute) : List (Text × Nat × Nat) :=
  attributes.map fun vattr => (vattr.name, vattr.location, 128)

/-- The items are the attributes. -/
theorem encode_items (attributes : List Attribute) :
    vertexAttributes.encode (items attributes) = attributesBytes attributes := by
  show littleEndian 2 (items attributes).length ++ (items attributes).flatMap _ = _
  unfold items attributesBytes
  rw [List.length_map, List.flatMap_map]
  rfl

theorem encode_types (attributes : List Attribute) :
    vertexAttributeTypes.encode (attributes.map (·.type)) = typesBytes attributes := by
  show littleEndian 2 (attributes.map (·.type)).length ++ (attributes.map (·.type)).flatMap _ = _
  unfold typesBytes
  rw [List.length_map, List.flatMap_map]
  rfl

theorem zipWith_items (attributes : List Attribute) :
    List.zipWith (fun item type => (⟨item.1, item.2.1, type⟩ : Attribute)) (items attributes)
      (attributes.map (·.type)) = attributes := by
  unfold items
  induction attributes with
  | nil => rfl
  | cons vattr attributes ih => rw [List.map_cons, List.map_cons, List.zipWith_cons_cons, ih]

/-- The attributes with their sizes are short. -/
theorem length_attributesBytes
    (hsize : 2 + (attributes.map fun vattr => vattr.name.length + 3).sum < 65536) :
    (attributesBytes attributes).length < 65536 ∧ attributes.length < 65534 := by
  have hbytes : (attributesBytes attributes).length =
      2 + (attributes.map fun vattr => vattr.name.length + 3).sum := by
    rw [← encode_items, length_vertexAttributes]
    unfold items
    rw [List.map_map]
    rfl
  have hcount : attributes.length ≤ (attributes.map fun vattr => vattr.name.length + 3).sum := by
    clear hsize hbytes
    induction attributes with
    | nil => exact Nat.zero_le _
    | cons vattr attributes ih =>
      rw [List.length_cons, List.map_cons, List.sum_cons]
      omega
  omega

end Attributes

section Record

variable {function : FunctionRecord}

theorem length_publicMetadataBytes (hfit : function.AttributesFit) :
    (publicMetadataBytes function.attributes).length < 2 ^ 18 := by
  obtain ⟨hbytes, hcount⟩ := length_attributesBytes hfit.2
  have htypes := length_typesBytes function.attributes
  have hfour : ∀ ch0 ch1 ch2 ch3, (mtlbFourCC ch0 ch1 ch2 ch3).length = 4 := fun _ _ _ _ => rfl
  unfold publicMetadataBytes
  split
  · decide
  · simp only [List.length_append, length_littleEndian, MTLBFourCC.vertexAttribute,
      MTLBFourCC.vertexAttributeType, MTLBFourCC.endTag, hfour]
    omega

/-- Attributes that fit are written as valid metadata. -/
theorem valid_metadataTags (hfit : function.AttributesFit) :
    metadata.Valid (metadataTags function.attributes) := by
  obtain ⟨hbytes, hcount⟩ := length_attributesBytes hfit.2
  have htypes := length_typesBytes function.attributes
  have hnotLast : MTLBFourCC.vertexAttribute ≠ MTLBFourCC.endTag := by decide
  have hnotLast' : MTLBFourCC.vertexAttributeType ≠ MTLBFourCC.endTag := by decide
  refine ⟨fun tag htag => ?_, ?_⟩
  · unfold metadataTags at htag
    split at htag
    · exact absurd htag List.not_mem_nil
    · rcases List.mem_cons.mp htag with rfl | htag
      · exact ⟨rfl, hnotLast, hbytes⟩
      · rw [List.mem_singleton.mp htag]
        refine ⟨rfl, hnotLast', ?_⟩
        show (typesBytes function.attributes).length < 256 ^ 2
        omega
  · have hsize := length_publicMetadataBytes hfit
    rw [encode_metadataTags]
    omega

/-- Attributes that fit are read back. -/
theorem readAttributes_metadataTags (hbounded : function.Bounded) (hfit : function.AttributesFit) :
    readAttributes (metadataTags function.attributes) = some function.attributes := by
  obtain ⟨hbytes, hcount⟩ := length_attributesBytes hfit.2
  unfold metadataTags
  by_cases hnone : function.attributes = []
  · rw [if_pos hnone, hnone]
    rfl
  · have hitems : vertexAttributes.whole (attributesBytes function.attributes) =
        some (items function.attributes) := by
      rw [Format.whole_iff, encode_items]
      refine ⟨⟨?_, fun item hitem => ?_⟩, rfl⟩
      · rw [items, List.length_map]
        omega
      · obtain ⟨vattr, hvattr, rfl⟩ := List.mem_map.mp hitem
        obtain ⟨hname, hlocation⟩ := hfit.1 vattr hvattr
        exact ⟨hname, hlocation, show 128 < 256 ^ 1 by decide⟩
    have htypes : vertexAttributeTypes.whole (typesBytes function.attributes) =
        some (function.attributes.map (·.type)) := by
      rw [Format.whole_iff, encode_types]
      refine ⟨⟨?_, fun type htype => ?_⟩, rfl⟩
      · rw [List.length_map]
        omega
      · obtain ⟨vattr, hvattr, rfl⟩ := List.mem_map.mp htype
        exact hbounded.types vattr hvattr
    have hlength : (items function.attributes).length =
        (function.attributes.map (·.type)).length := by
      rw [items, List.length_map, List.length_map]
    rw [if_neg hnone]
    show ((vertexAttributes.whole (attributesBytes function.attributes)).bind fun names =>
      (vertexAttributeTypes.whole (typesBytes function.attributes)).bind fun types =>
        if names.length = types.length then
          some (List.zipWith (fun name type => (⟨name.1, name.2.1, type⟩ : Attribute)) names types)
        else none) = some function.attributes
    rw [hitems, htypes, Option.bind_some, Option.bind_some, if_pos hlength, zipWith_items]

/-- A bounded function is written as valid tags. -/
theorem valid_tags (hbounded : function.Bounded) (hash : Sha256Hash) (bitcodeSize a b c : Nat) :
    tags.Valid (function.tags hash.1 bitcodeSize [a, b, c]) := by
  have hname := hbounded.name
  intro tag htag
  rcases List.mem_append.mp htag with htag | htag
  · simp only [List.mem_cons, List.not_mem_nil, or_false] at htag
    rcases htag with rfl | rfl | rfl | rfl | rfl | rfl
    · refine ⟨rfl, show MTLBFourCC.name ≠ MTLBFourCC.endTag by decide, ?_⟩
      show (function.name ++ [0]).length < 256 ^ 2
      rw [List.length_append, List.length_singleton]
      omega
    · exact ⟨rfl, show MTLBFourCC.type ≠ MTLBFourCC.endTag by decide, show 1 < 256 ^ 2 by decide⟩
    · refine ⟨rfl, show MTLBFourCC.hash ≠ MTLBFourCC.endTag by decide, ?_⟩
      show hash.1.length < 256 ^ 2
      rw [hash.2]
      decide
    · exact ⟨rfl, show MTLBFourCC.size ≠ MTLBFourCC.endTag by decide, show 8 < 256 ^ 2 by decide⟩
    · exact ⟨rfl, show MTLBFourCC.offset ≠ MTLBFourCC.endTag by decide, show 24 < 256 ^ 2 by decide⟩
    · exact ⟨rfl, show MTLBFourCC.version ≠ MTLBFourCC.endTag by decide, show 8 < 256 ^ 2 by decide⟩
  · cases hpatch : function.patchType with
    | none =>
      rw [hpatch] at htag
      exact absurd htag List.not_mem_nil
    | some patchType =>
      rw [hpatch] at htag
      rw [List.mem_singleton.mp htag]
      exact ⟨rfl, show MTLBFourCC.tess ≠ MTLBFourCC.endTag by decide, show 1 < 256 ^ 2 by decide⟩

theorem entrySize_lt (hbounded : function.Bounded) : function.entrySize < 2 ^ 17 := by
  have hname := hbounded.name
  have hpatch : (patchBytes function.patchType).length ≤ 7 := by
    cases function.patchType with
    | none => exact Nat.zero_le _
    | some patchType => exact Nat.le_refl 7
  unfold FunctionRecord.entrySize
  omega

/-- The offsets of a function are read back. -/
theorem readOffsets_tags (hash : Sha256Hash) (bitcodeSize a b c : Nat) (ha : a < 256 ^ 8)
    (hb : b < 256 ^ 8) (hc : c < 256 ^ 8) :
    readOffsets (function.tags hash.1 bitcodeSize [a, b, c]) = some [a, b, c] := by
  show (fields [8, 8, 8]).whole (encodeFields [8, 8, 8] [a, b, c]) = some [a, b, c]
  rw [Format.whole_iff]
  exact ⟨.cons ha (.cons hb (.cons hc .nil)), rfl⟩

end Record

/-! ## The file of a single function -/

/-- A slice is found behind what is before it. -/
theorem slice_append {bytes value : List Byte} (front back : List Byte) {offset size : Nat}
    (hbytes : bytes = front ++ (value ++ back)) (hoffset : front.length = offset)
    (hsize : value.length = size) :
    slice bytes offset size = some value := by
  subst hbytes hoffset hsize
  have hin : front.length + value.length ≤ (front ++ (value ++ back)).length := by
    rw [List.length_append, List.length_append]
    omega
  rw [slice, if_pos hin, List.drop_left, List.take_left]

/-- The streams of a module, as one file. -/
def fileBytes (s : Streams) (bitcode : List Byte) : List Byte :=
  encodeFields MTLBHeader.widths (makeHeader s bitcode.length).values ++
    (littleEndian 4 s.fnCount ++ (littleEndian 4 (s.functionDef.length + 4) ++ (s.functionDef ++
      (MTLBFourCC.endTag ++ (s.publicMetadata ++ (s.privateMetadata ++ bitcode))))))

/-- The streams are short enough for the words of the header. -/
structure Streams.Short (s : Streams) (bitcode : List Byte) : Prop where
  functionDef : s.functionDef.length < 2 ^ 20
  publicMetadata : s.publicMetadata.length < 2 ^ 20
  privateMetadata : s.privateMetadata.length < 2 ^ 20
  bitcode : bitcode.length < 2 ^ 63

theorem length_header (s : Streams) (bitcodeSize : Nat) :
    (encodeFields MTLBHeader.widths (makeHeader s bitcodeSize).values).length = sizeofMTLBHeader :=
  rfl

theorem length_fileBytes (s : Streams) (bitcode : List Byte) :
    (fileBytes s bitcode).length = (makeHeader s bitcode.length).fileSize := by
  have hlast : MTLBFourCC.endTag.length = 4 := rfl
  unfold fileBytes
  rw [List.length_append, length_header]
  simp only [List.length_append, length_littleEndian, hlast]
  show _ = sizeofMTLBHeader + 4 + 4 + s.functionDef.length + 4 + s.publicMetadata.length +
    s.privateMetadata.length + bitcode.length
  omega

/-- The header of a short file is read back. -/
theorem header_read {s : Streams} {bitcode : List Byte} (h : s.Short bitcode) :
    readFields MTLBHeader.widths (fileBytes s bitcode) = some ((makeHeader s bitcode.length).values,
      littleEndian 4 s.fnCount ++ (littleEndian 4 (s.functionDef.length + 4) ++ (s.functionDef ++
        (MTLBFourCC.endTag ++ (s.publicMetadata ++ (s.privateMetadata ++ bitcode)))))) := by
  obtain ⟨hfunctionDef, hpublic, hprivate, hbitcode⟩ := h
  refine readFields_iff.mpr ⟨?_, rfl⟩
  unfold MTLBHeader.widths MTLBHeader.values makeHeader sizeofMTLBHeader
  simp only [List.forall₂_cons]
  refine ⟨by decide, by decide, by decide, by decide, by decide, by decide, by decide, by decide,
    ?_, ?_, ?_, ?_, ?_, ?_, ?_, ?_, ?_, .nil⟩
  all_goals omega

/-! The sections of the file, each found behind what is in front of it. -/

/-- The list of functions: their number and the one entry. -/
theorem slice_functionList (s : Streams) (bitcode : List Byte) :
    slice (fileBytes s bitcode) (makeHeader s bitcode.length).functionListOffset
      (4 + (makeHeader s bitcode.length).functionListSize) =
      some (littleEndian 4 s.fnCount ++ (littleEndian 4 (s.functionDef.length + 4) ++
        s.functionDef)) := by
  refine slice_append _ (MTLBFourCC.endTag ++
      (s.publicMetadata ++ (s.privateMetadata ++ bitcode))) ?_ (length_header s bitcode.length) ?_
  · unfold fileBytes
    simp only [List.append_assoc]
  · show _ = 4 + (s.functionDef.length + 4)
    simp only [List.length_append, length_littleEndian]
    omega

/-- The public metadata. -/
theorem slice_publicMetadata (s : Streams) (bitcode : List Byte) :
    slice (fileBytes s bitcode) (makeHeader s bitcode.length).publicMetadataOffset
      (makeHeader s bitcode.length).publicMetadataSize = some s.publicMetadata := by
  have hlast : MTLBFourCC.endTag.length = 4 := rfl
  refine slice_append (encodeFields MTLBHeader.widths (makeHeader s bitcode.length).values ++
    (littleEndian 4 s.fnCount ++ (littleEndian 4 (s.functionDef.length + 4) ++ (s.functionDef ++
      MTLBFourCC.endTag)))) (s.privateMetadata ++ bitcode) ?_ ?_ rfl
  · unfold fileBytes
    simp only [List.append_assoc]
  · show _ = sizeofMTLBHeader + (s.functionDef.length + 4) + 4 + 4
    rw [List.length_append, length_header]
    simp only [List.length_append, length_littleEndian, hlast]
    omega

/-- The private metadata. -/
theorem slice_privateMetadata (s : Streams) (bitcode : List Byte) :
    slice (fileBytes s bitcode) (makeHeader s bitcode.length).privateMetadataOffset
      (makeHeader s bitcode.length).privateMetadataSize = some s.privateMetadata := by
  have hlast : MTLBFourCC.endTag.length = 4 := rfl
  refine slice_append (encodeFields MTLBHeader.widths (makeHeader s bitcode.length).values ++
    (littleEndian 4 s.fnCount ++ (littleEndian 4 (s.functionDef.length + 4) ++ (s.functionDef ++
      (MTLBFourCC.endTag ++ s.publicMetadata))))) bitcode ?_ ?_ rfl
  · unfold fileBytes
    simp only [List.append_assoc]
  · show _ = sizeofMTLBHeader + (s.functionDef.length + 4) + 4 + 4 + s.publicMetadata.length
    rw [List.length_append, length_header]
    simp only [List.length_append, length_littleEndian, hlast]
    omega

/-- The bitcode. -/
theorem slice_bitcode (s : Streams) (bitcode : List Byte) :
    slice (fileBytes s bitcode) (makeHeader s bitcode.length).bitcodeOffset
      (makeHeader s bitcode.length).bitcodeSize = some bitcode := by
  have hlast : MTLBFourCC.endTag.length = 4 := rfl
  refine slice_append (encodeFields MTLBHeader.widths (makeHeader s bitcode.length).values ++
    (littleEndian 4 s.fnCount ++ (littleEndian 4 (s.functionDef.length + 4) ++ (s.functionDef ++
      (MTLBFourCC.endTag ++ (s.publicMetadata ++ s.privateMetadata)))))) [] ?_ ?_ rfl
  · unfold fileBytes
    simp only [List.append_assoc, List.append_nil]
  · show _ = sizeofMTLBHeader + (s.functionDef.length + 4) + 4 + 4 + s.publicMetadata.length +
      s.privateMetadata.length
    rw [List.length_append, length_header]
    simp only [List.length_append, length_littleEndian, hlast]
    omega

/-- Behind the list there are no tags but the last. -/
theorem read_extended (s : Streams) (bitcode : List Byte) :
    tags.read ((fileBytes s bitcode).drop ((makeHeader s bitcode.length).functionListOffset + 4 +
      (makeHeader s bitcode.length).functionListSize)) =
      some ([], s.publicMetadata ++ (s.privateMetadata ++ bitcode)) := by
  have hfront : (encodeFields MTLBHeader.widths (makeHeader s bitcode.length).values ++
      (littleEndian 4 s.fnCount ++ (littleEndian 4 (s.functionDef.length + 4) ++
        s.functionDef))).length =
        sizeofMTLBHeader + 4 + (s.functionDef.length + 4) := by
    rw [List.length_append, length_header]
    simp only [List.length_append, length_littleEndian]
    omega
  have hbytes : fileBytes s bitcode =
      (encodeFields MTLBHeader.widths (makeHeader s bitcode.length).values ++
      (littleEndian 4 s.fnCount ++ (littleEndian 4 (s.functionDef.length + 4) ++
        s.functionDef))) ++
        (MTLBFourCC.endTag ++ (s.publicMetadata ++ (s.privateMetadata ++ bitcode))) := by
    unfold fileBytes
    simp only [List.append_assoc]
  refine tags.read_iff.mpr ⟨fun _ hmem => absurd hmem List.not_mem_nil, ?_⟩
  rw [hbytes]
  exact List.drop_left' hfront

/-- **A file with one entry** is read as its sections. -/
theorem readFile_fileBytes {s : Streams} {bitcode : List Byte} {functionTags : List Tag}
    (h : s.Short bitcode) (hcount : s.fnCount = 1)
    (hentry : s.functionDef = tags.encode functionTags) (hvalid : tags.Valid functionTags) :
    readFile (fileBytes s bitcode) = some {
      functions := [functionTags]
      publicMetadata := s.publicMetadata
      privateMetadata := s.privateMetadata
      bitcode := bitcode } := by
  have hof : MTLBHeader.ofValues (makeHeader s bitcode.length).values =
      some (makeHeader s bitcode.length) := rfl
  have hchecks : ¬((makeHeader s bitcode.length).magic ≠ mtlbMagic ∨
      (makeHeader s bitcode.length).fileSize ≠ (fileBytes s bitcode).length) := by
    rintro (hmagic | hsize)
    · exact hmagic rfl
    · exact hsize (length_fileBytes s bitcode).symm
  -- the list of one entry, whose size is the one that is written
  have hword : readWord 4 (littleEndian 4 s.fnCount ++
      (littleEndian 4 (s.functionDef.length + 4) ++ s.functionDef)) =
        some (1, littleEndian 4 (s.functionDef.length + 4) ++ s.functionDef) := by
    rw [hcount]
    exact readWord_iff.mpr ⟨by decide, rfl⟩
  have hfunctions : (many entry 1).whole (littleEndian 4 (s.functionDef.length + 4) ++
      s.functionDef) =
      some [functionTags] := by
    rw [Format.whole_iff]
    refine ⟨⟨rfl, fun value hmem => ?_⟩, ?_⟩
    · rw [List.mem_singleton.mp hmem]
      refine ⟨hvalid, ?_⟩
      have hshort := h.functionDef
      rw [← hentry]
      omega
    · show _ = [functionTags].flatMap entry.encode
      rw [List.flatMap_singleton, hentry, Nat.add_comm]
      rfl
  unfold readFile
  rw [header_read h, Option.bind_some]
  dsimp only
  rw [hof, Option.bind_some, if_neg hchecks, slice_functionList, Option.bind_some, hword,
    Option.bind_some]
  dsimp only
  rw [hfunctions, Option.bind_some, read_extended, Option.bind_some, slice_publicMetadata,
    Option.bind_some, slice_privateMetadata, Option.bind_some, slice_bitcode]
  rfl

theorem short_writeRecord (hash : Sha256Hash) {function : FunctionRecord}
    (hbounded : function.Bounded) (hfit : function.AttributesFit) {bitcode : List Byte}
    (hbitcode : bitcode.length < 2 ^ 63) :
    (writeRecord hash bitcode.length {} function).Short bitcode where
  functionDef := by
    have hsize := entrySize_lt hbounded
    show ([] ++ tags.encode (function.tags hash.1 bitcode.length [0, 0, 0])).length < 2 ^ 20
    rw [List.nil_append, length_encode_tags]
    omega
  publicMetadata := by
    have hsize := length_publicMetadataBytes hfit
    show ([] ++ (littleEndian 4 (publicMetadataBytes function.attributes).length ++
      publicMetadataBytes function.attributes)).length < 2 ^ 20
    rw [List.nil_append, List.length_append, length_littleEndian]
    omega
  privateMetadata := show 8 < 2 ^ 20 by decide
  bitcode := hbitcode

/-- The metadata of a function that is alone begins the sections. -/
theorem readBack_single {computeSha256Hash : List Byte → Sha256Hash} {m : Module}
    {function : FunctionRecord} (hm : m.functions = [function]) (hfit : function.AttributesFit) :
    ReadsBack computeSha256Hash m := by
  have hbounded :=
    bounded_functions m (hm ▸ List.mem_singleton_self function : function ∈ m.functions)
  have hwritten : writeFunctions computeSha256Hash m =
      writeRecord (computeSha256Hash m.bitcode) m.bitcode.length {} function := by
    rw [writeFunctions_eq, hm]
    rfl
  have hwrite : write computeSha256Hash m =
      fileBytes (writeRecord (computeSha256Hash m.bitcode) m.bitcode.length {} function)
        m.bitcode := by
    rw [← hwritten]
    rfl
  have hshort := short_writeRecord (computeSha256Hash m.bitcode) hbounded hfit m.bitcode_lt
  have hread := readFile_fileBytes hshort rfl (List.nil_append _)
    (valid_tags hbounded (computeSha256Hash m.bitcode) m.bitcode.length 0 0 0)
  refine ⟨_, (congrArg readFile hwrite).trans hread, rfl, ?_⟩
  rw [hm]
  refine .cons ⟨0, 0, ?_, rfl, ?_, rfl⟩ .nil
  · exact readOffsets_tags _ _ 0 0 0 (by decide) (by decide) (by decide)
  · have hrecord : metadata.read (littleEndian 4 (publicMetadataBytes function.attributes).length ++
        publicMetadataBytes function.attributes) = some (metadataTags function.attributes, []) := by
      refine metadata.read_iff.mpr ⟨valid_metadataTags hfit, ?_⟩
      rw [List.append_nil]
      show _ = littleEndian 4 (0 + (tags.encode (metadataTags function.attributes)).length) ++
        tags.encode (metadataTags function.attributes)
      rw [encode_metadataTags, Nat.zero_add]
    show (readMetadata (littleEndian 4 (publicMetadataBytes function.attributes).length ++
      publicMetadataBytes function.attributes) 0).bind readAttributes = some function.attributes
    rw [readMetadata, List.drop_zero, hrecord]
    exact readAttributes_metadataTags hbounded hfit

/-- **Exactly the modules** with a single function, whose attributes fit, read back. -/
theorem readsBack_iff (computeSha256Hash : List Byte → Sha256Hash) (m : Module) :
    ReadsBack computeSha256Hash m ↔ ∃ function, m.functions = [function] ∧
      function.AttributesFit := by
  constructor
  · intro h
    obtain ⟨function, hm⟩ := List.length_eq_one_iff.mp (length_functions h)
    obtain ⟨file, -, -, hfunctions⟩ := h
    rw [hm] at hfunctions
    obtain ⟨entry, entries, hfunction, -, -⟩ := List.forall₂_cons_left_iff.mp hfunctions
    obtain ⟨publicOffset, privateOffset, -, -, hattributes, -⟩ := hfunction
    exact ⟨function, hm, attributesFit_of_read hattributes⟩
  · rintro ⟨function, hm, hfit⟩
    exact readBack_single hm hfit

/-- A function without a body. -/
def emptyFunction (name : Text) (h : name.length < 65535) : Function where
  name := name
  name_lt := h

/-- One vertex and one fragment function. -/
def twoFunctions : Module where
  vertexFns := [⟨emptyFunction (text "vs") (by decide), [], none⟩]
  fragmentFns := [emptyFunction (text "fs") (by decide)]
  kernelFns := []
  objectFns := []
  meshFns := []
  bitcode := []
  bitcode_lt := by decide

/-- The size in front of the entries is that of both. -/
theorem not_readsBack_twoFunctions :
    ¬∃ computeSha256Hash, ReadsBack computeSha256Hash twoFunctions := by
  rintro ⟨computeSha256Hash, h⟩
  have hlength := length_functions h
  cases hlength

end Metallib

end Dxmt
