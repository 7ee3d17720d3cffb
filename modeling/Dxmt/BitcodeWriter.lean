import Dxmt.BitcodeParser
import Mathlib.Data.List.Forall2

/-!
# Writing bitcode

The stream that a bitstream writer makes of a tree of blocks, and what a reader of the stream has to
find in it. The format is the one that `bitc` names in the source: a record is unabbreviated or has
an abbreviation that is in scope, a block has its own abbreviations after those that BLOCKINFO has
registered for its id.

* `Items.write`: the bits of the items of a block, from where they start on. `writeStream`: a whole
  stream.
* `Items.Valid`: what a writer is promised by its callers.
* `Items.ranges`, `Items.entries`, `Items.registry`: the blocks, the records and the registered
  abbreviations.
-/

namespace Dxmt

namespace Bitcode

open Bitstream

/-! ## Abbreviations -/

/-- The encodings of one value. -/
inductive Scalar where
  | fixed (width : Nat)
  | vbr (width : Nat)
  | char6
  deriving DecidableEq

/-- An operand of an abbreviation. -/
inductive Op where
  | literal (value : Nat)
  | scalar (s : Scalar)
  | array (s : Scalar)
  | blob
  deriving DecidableEq

/-- What a record has at an operand of its abbreviation. -/
inductive Field where
  | value (v : Nat)
  | items (vs : List Nat)
  | bytes (bs : List Byte)
  deriving DecidableEq

/-- The character that six bits stand for. -/
def decodeChar6 (i : Nat) : Nat :=
  if i < 26 then 97 + i
  else if i < 52 then 65 + (i - 26)
  else if i < 62 then 48 + (i - 52)
  else if i = 62 then 46
  else 95

/-- The six-bit code of a character in `[a-zA-Z0-9._]`. -/
def encodeChar6 (c : Nat) : Nat :=
  if c < 47 then 62
  else if c < 58 then 52 + (c - 48)
  else if c < 91 then 26 + (c - 65)
  else if c = 95 then 63
  else c - 97

namespace Scalar

/-- The width is one that the reader accepts. -/
def Valid : Scalar → Prop
  | fixed width => 1 ≤ width ∧ width ≤ 64
  | vbr width => 2 ≤ width ∧ width ≤ 32
  | char6 => True

/-- The value can be written. -/
def Holds : Scalar → Nat → Prop
  | fixed width, value => value < 2 ^ width
  | vbr _, value => value < 2 ^ 64
  | char6, value => ∃ i < 64, decodeChar6 i = value

/-- The number that stands in the stream for a value. -/
def raw : Scalar → Nat → Nat
  | char6, value => encodeChar6 value
  | _, value => value

/-- The bits of a value. -/
def bits : Scalar → Nat → List Bool
  | fixed width, value => Bitstream.fixed width value
  | vbr width, value => Bitstream.vbr width value
  | char6, value => Bitstream.fixed 6 (encodeChar6 value)

/-- The operand that describes the scalar. -/
def operand : Scalar → AbbrevOperand
  | fixed width => ⟨false, width, 1⟩
  | vbr width => ⟨false, width, 2⟩
  | char6 => ⟨false, 0, 4⟩

end Scalar

namespace Op

/-- The literal fits its field and the scalar is valid. -/
def Valid : Op → Prop
  | literal value => value < 2 ^ 64
  | scalar s => s.Valid
  | array s => s.Valid
  | blob => True

/-- The operand is one value, so that it can be the code of a record. -/
def IsValue : Op → Prop
  | literal _ => True
  | scalar _ => True
  | _ => False

/-- The operands that describe the part. -/
def operands : Op → List AbbrevOperand
  | literal value => [⟨true, value, 0⟩]
  | scalar s => [s.operand]
  | array s => [⟨false, 0, 3⟩, s.operand]
  | blob => [⟨false, 0, 5⟩]

/-- The field can be written with the operand. -/
inductive Takes : Op → Field → Prop where
  | literal (value : Nat) : Takes (literal value) (.value value)
  | scalar {s : Scalar} {value : Nat} (h : s.Holds value) : Takes (scalar s) (.value value)
  | array {s : Scalar} {values : List Nat} (length : values.length < 2 ^ 64)
      (h : ∀ value ∈ values, s.Holds value) : Takes (array s) (.items values)
  | blob {bytes : List Byte} (length : bytes.length < 2 ^ 61) : Takes blob (.bytes bytes)

/-- The field, written as the part says. -/
def write : Op → Field → Writer
  | scalar s, .value value => .put (s.bits value)
  | array s, .items values => .put (vbr 6 values.length ++ values.flatMap s.bits)
  | blob, .bytes bytes =>
    (Writer.put (vbr 6 bytes.length)).andThen
      (Writer.align.andThen
        ((Writer.put (bytes.flatMap fun byte => Bitstream.fixed 8 byte.toNat)).andThen .align))
  | _, _ => .put []

end Op

/-- The operands of a record at a field. A blob is one. -/
def Field.count : Field → Nat
  | value _ => 1
  | items vs => vs.length
  | bytes _ => 1

/-- The bits of the operand inside a definition of an abbreviation. -/
def AbbrevOperand.bits (operand : AbbrevOperand) : List Bool :=
  if operand.literal then Bitstream.fixed 1 1 ++ vbr 8 operand.value
  else
    Bitstream.fixed 1 0 ++ Bitstream.fixed 3 operand.encoding ++
      if operand.encoding = 1 ∨ operand.encoding = 2 then vbr 5 operand.value else []

/-- The operands as the parser keeps them. -/
def toAbbrev (ops : List Op) : Abbrev := ops.flatMap Op.operands

/-- An abbreviation that a writer may define: its first part holds the record's code. -/
structure ValidAbbrev (ops : List Op) : Prop where
  each : ∀ op ∈ ops, op.Valid
  code : ∃ op ∈ ops.head?, op.IsValue
  length : (toAbbrev ops).length < 2 ^ 64

/-- The fields of a record, each by its part. -/
def writeFields : List Op → List Field → Writer
  | op :: ops, field :: fields => (op.write field).andThen (writeFields ops fields)
  | _, _ => .put []

/-! ## Items -/

/-- The items of a block, in order. -/
inductive Items where
  | nil
  | record (code : Nat) (operands : List Nat) (rest : Items)
  | abbreviated (index : Nat) (ops : List Op) (fields : List Field) (rest : Items)
  | define (ops : List Op) (rest : Items)
  | block (id width : Nat) (body rest : Items)

/-- A record without an abbreviation. -/
def writeRecord (width code : Nat) (operands : List Nat) : Writer :=
  .put (fixed width 3 ++ vbr 6 code ++ vbr 6 operands.length ++ operands.flatMap (vbr 6))

/-- A record by the abbreviation of the index. -/
def writeAbbreviated (width index : Nat) (ops : List Op) (fields : List Field) : Writer :=
  (Writer.put (fixed width (index + 4))).andThen (writeFields ops fields)

/-- A definition of an abbreviation. -/
def writeDefine (width : Nat) (ops : List Op) : Writer :=
  .put (fixed width 2 ++ vbr 5 (toAbbrev ops).length ++ (toAbbrev ops).flatMap AbbrevOperand.bits)

/-- A block up to its number of words. -/
def writeHeader (width id childWidth : Nat) : Writer :=
  (Writer.put (fixed width 1 ++ vbr 8 id ++ vbr 4 childWidth)).andThen .align

/-- Where the items of a block start. -/
def blockStart (width id childWidth offset : Nat) : Nat :=
  (writeHeader width id childWidth).stop offset + 32

/-- The end of a block. -/
def writeEnd (width : Nat) : Writer := (Writer.put (fixed width 0)).andThen .align

/-- The registered abbreviations of each block id. -/
abbrev Registry := Nat → List (List Op)

/-- Adds an abbreviation for a block. -/
def Registry.add (registry : Registry) (id : Nat) (ops : List Op) : Registry :=
  Function.update registry id (registry id ++ [ops])

/-- The id that DEFINE_ABBREV registers for, after a record of a block. -/
def nextBid (id : Nat) (bid : Option Nat) (code : Nat) (operands : List Nat) : Option Nat :=
  if id = 0 ∧ code = 1 then
    match operands with
    | target :: _ => some (u32 target)
    | [] => bid
  else bid

/-- What DEFINE_ABBREV adds to: the abbreviations of its block, or in BLOCKINFO those of an id. -/
def scopeAfter (id : Nat) (scope : List (List Op)) (ops : List Op) : List (List Op) :=
  if id = 0 then scope else scope ++ [ops]

/-- In `BLOCKINFO` a definition counts for the block that the last `SETBID` names. -/
def registryAfter (id : Nat) (bid : Option Nat) (registered : Registry) (ops : List Op) :
    Registry :=
  if id = 0 then bid.elim registered fun target => registered.add target ops else registered

/-- The values of a field. -/
def Field.values : Field → List Nat
  | value v => [v]
  | items vs => vs
  | bytes bs => bs.map BitVec.toNat

/-- The code of a record, which is its first value, and the operands behind it. -/
def recordValues (fields : List Field) : List Nat := fields.flatMap Field.values

/-- The code of a record is its first value. -/
def recordCode (fields : List Field) : Nat := (recordValues fields).headD 0

/-- How the code is written, where it is no literal. -/
def codeScalar : List Op → Option Scalar
  | .scalar s :: _ => some s
  | _ => none

/-- A block as a reader has to find it. -/
structure Range where
  id : Nat
  depth : Nat
  startBit : Nat
  endBit : Nat
  deriving DecidableEq

/-- A record as it is written: the scalar is the one that its code is written with, if it is. -/
structure Entry where
  blockId : Nat
  code : Nat
  codeScalar : Option Scalar
  count : Nat
  abbreviated : Bool

/-- The record of an entry with an abbreviation. -/
def abbreviatedEntry (blockId : Nat) (ops : List Op) (fields : List Field) : Entry :=
  ⟨blockId, recordCode fields, codeScalar ops, (fields.map Field.count).sum - 1, true⟩

namespace Items

/-- The bits of the items of a block, where its abbreviation ids have a width. -/
def write : Items → Nat → Writer
  | nil, _ => .put []
  | record code operands rest, width => (writeRecord width code operands).andThen (rest.write width)
  | abbreviated index ops fields rest, width =>
    (writeAbbreviated width index ops fields).andThen (rest.write width)
  | define ops rest, width => (writeDefine width ops).andThen (rest.write width)
  | block id childWidth body rest, width =>
    ((writeHeader width id childWidth).andThen
      (Writer.sized ((body.write childWidth).andThen (writeEnd childWidth)))).andThen
        (rest.write width)

/-- Where a block with these items ends. -/
def blockStop (body : Items) (width start : Nat) : Nat :=
  ((body.write width).andThen (writeEnd width)).stop start

/-- What the items of a block leave registered. -/
def registry : Items → Nat → Option Nat → Registry → Registry
  | nil, _, _, registered => registered
  | record code operands rest, id, bid, registered =>
    rest.registry id (nextBid id bid code operands) registered
  | abbreviated _ _ fields rest, id, bid, registered =>
    rest.registry id (nextBid id bid (recordCode fields) (recordValues fields).tail) registered
  | define ops rest, id, bid, registered =>
    rest.registry id bid (registryAfter id bid registered ops)
  | block childId _ body rest, id, bid, registered =>
    rest.registry id bid (body.registry childId none registered)

/-- What a writer is promised: an abbreviation is in scope where a record is written with it, a
DEFINE_ABBREV of BLOCKINFO is behind a SETBID, and each number fits the place that the format has
for it. -/
def Valid : Items → (id width depth : Nat) → Option Nat → List (List Op) → Registry → Prop
  | nil, _, _, _, _, _, _ => True
  | record code operands rest, id, width, depth, bid, scope, registered =>
    code < 2 ^ 32 ∧ operands.length < 2 ^ 64 ∧ (∀ value ∈ operands, value < 2 ^ 64) ∧
      rest.Valid id width depth (nextBid id bid code operands) scope registered
  | abbreviated index ops fields rest, id, width, depth, bid, scope, registered =>
    scope[index]? = some ops ∧ index + 4 < 2 ^ width ∧ List.Forall₂ Op.Takes ops fields ∧
      recordCode fields < 2 ^ 32 ∧
        rest.Valid id width depth (nextBid id bid (recordCode fields) (recordValues fields).tail)
          scope registered
  | define ops rest, id, width, depth, bid, scope, registered =>
    ValidAbbrev ops ∧ (id = 0 → bid.isSome) ∧
      rest.Valid id width depth bid (scopeAfter id scope ops) (registryAfter id bid registered ops)
  | block childId childWidth body rest, id, width, depth, bid, scope, registered =>
    childId < 2 ^ 32 ∧ 2 ≤ childWidth ∧ childWidth ≤ 32 ∧ depth + 1 ≤ 64 ∧
      body.Valid childId childWidth (depth + 1) none (registered childId) registered ∧
        rest.Valid id width depth bid scope (body.registry childId none registered)

/-- The words of a block fit the place that the format has for their number. -/
def Sized : Items → (width offset : Nat) → Prop
  | nil, _, _ => True
  | record code operands rest, width, offset =>
    rest.Sized width ((writeRecord width code operands).stop offset)
  | abbreviated index ops fields rest, width, offset =>
    rest.Sized width ((writeAbbreviated width index ops fields).stop offset)
  | define ops rest, width, offset => rest.Sized width ((writeDefine width ops).stop offset)
  | block id childWidth body rest, width, offset =>
    let start := blockStart width id childWidth offset
    let stop := body.blockStop childWidth start
    (stop - start) / 32 < 2 ^ 32 ∧ body.Sized childWidth start ∧ rest.Sized width stop

/-- The blocks inside, the outer ones first. -/
def ranges : Items → (width depth offset : Nat) → List Range
  | nil, _, _, _ => []
  | record code operands rest, width, depth, offset =>
    rest.ranges width depth ((writeRecord width code operands).stop offset)
  | abbreviated index ops fields rest, width, depth, offset =>
    rest.ranges width depth ((writeAbbreviated width index ops fields).stop offset)
  | define ops rest, width, depth, offset =>
    rest.ranges width depth ((writeDefine width ops).stop offset)
  | block id childWidth body rest, width, depth, offset =>
    let start := blockStart width id childWidth offset
    let stop := body.blockStop childWidth start
    ⟨id, depth + 1, start, stop⟩ :: body.ranges childWidth (depth + 1) start ++
      rest.ranges width depth stop

/-- The records, in the order they are written in. -/
def entries : Items → (id : Nat) → List Entry
  | nil, _ => []
  | record code operands rest, id => ⟨id, code, none, operands.length, false⟩ :: rest.entries id
  | abbreviated _ ops fields rest, id => abbreviatedEntry id ops fields :: rest.entries id
  | define _ rest, id => rest.entries id
  | block childId _ body rest, id => body.entries childId ++ rest.entries id

/-- No record of a BLOCKINFO block is written with an abbreviation. -/
def PlainInfo : Items → (id : Nat) → Prop
  | nil, _ => True
  | record _ _ rest, id => rest.PlainInfo id
  | abbreviated _ _ _ rest, id => id ≠ 0 ∧ rest.PlainInfo id
  | define _ rest, id => rest.PlainInfo id
  | block childId _ body rest, id => body.PlainInfo childId ∧ rest.PlainInfo id

/-- There is nothing but blocks around the blocks of a stream. -/
def OnlyBlocks : Items → Prop
  | nil => True
  | block _ _ _ rest => rest.OnlyBlocks
  | _ => False

end Items

/-! ## Streams -/

/-- The id that the parser has for the whole stream. -/
def rootId : Nat := 2 ^ 32 - 1

/-- The magic number and the items. -/
def streamWriter (items : Items) : Writer :=
  (Writer.put (fixed 32 kBitcodeMagicValue)).andThen (items.write 2)

/-- The bytes of a stream. -/
def writeStream (items : Items) : List Byte := pack (streamWriter items 0)

/-- A stream that a writer may write: blocks only, every part valid and every length in its field.
-/
structure ValidStream (items : Items) : Prop where
  blocks : items.OnlyBlocks
  valid : items.Valid rootId 2 0 none [] fun _ => []
  sized : items.Sized 2 32

/-- What the reader keeps of a record. -/
def Entry.info (entry : Entry) : RecordInfo :=
  ⟨entry.blockId, entry.code, entry.count, entry.abbreviated⟩

/-- What the reader keeps of a block. -/
def BlockInfo.range (block : BlockInfo) : Range :=
  ⟨block.id, block.depth, block.startBit, block.endBit⟩

/-- The parser gives back the blocks and the records that were written. -/
def Exact (items : Items) : Prop :=
  ∃ s, runBitcodeParser (writeStream items) = .ok () s ∧
    s.blocks.map BlockInfo.range =
        ⟨rootId, 0, 32, (streamWriter items).stop 0⟩ :: items.ranges 2 0 32 ∧
      s.records = (items.entries rootId).map Entry.info

end Bitcode

end Dxmt
