import Dxmt.Bitstream
import Dxmt.ByteWords

/-!
# The bitcode parser (`BitcodeParser`, `BitReader`, `ExtractBitstream`)

`BitcodeParser` reads the blocks and the records of a stream of bits, with the abbreviations that
records are written with. A parser function is a state transformer that may fail; where it fails,
the state is the one it has reached.

The state has a log of work that the source does not have: the turns of the loops over items,
operands, array items, operands of abbreviations and block ids that BLOCKINFO has registered, the
counts that a stream declares, and what of the stream brings turns without a read. Nothing reads it.
-/

namespace Dxmt

namespace Bitcode

open Bitstream

/-! ## The state -/

/-- `BitcodeAbbrevOperand`. -/
structure AbbrevOperand where
  literal : Bool
  value : Nat
  encoding : Nat
  deriving DecidableEq

/-- `BitcodeAbbrev`. -/
abbrev Abbrev := List AbbrevOperand

/-- `BitcodeBlockInfo`. -/
structure BlockInfo where
  id : Nat
  abbreviationIdWidth : Nat
  depth : Nat
  startBit : Nat
  endBit : Nat
  recordCount : Nat
  deriving DecidableEq

/-- `BitcodeRecordInfo`. -/
structure RecordInfo where
  blockId : Nat
  code : Nat
  operandCount : Nat
  abbreviated : Bool
  deriving DecidableEq

/-- What the loops have done. A declared count stands beside the bits that were left when it was
read. -/
structure Work where
  /-- The turns of all loops, and what a lookup copies. -/
  turns : Nat
  /-- The capacities given to `reserve`: the declared operand counts of abbreviations. -/
  declared : List (Nat × Nat)
  /-- The abbreviations whose operands have not all been read. -/
  unfinished : Nat
  /-- The lengths of arrays whose items take no bits. -/
  arrays : List (Nat × Nat)
  /-- For each record with an abbreviation, the operands of it that take no bits. -/
  literals : List Nat

/-- The reader's offset, and what the parser has collected. -/
structure State where
  offset : Nat
  blocks : List BlockInfo
  records : List RecordInfo
  blockInfoAbbrevs : List (Nat × List Abbrev)
  work : Work

/-- A function of the parser. Where it fails, the state is the one it has reached. -/
abbrev Parser (α : Type) := EStateM Unit State α

/-- `return false`. -/
def fail {α : Type} : Parser α := throw ()

theorem bind_ok {α β : Type} {m : Parser α} {f : α → Parser β} {a : α} {s t : State}
    (h : m s = .ok a t) : (m >>= f) s = f a t := by
  change EStateM.bind m f s = _
  rw [EStateM.bind, h]

theorem bind_error {α β : Type} {m : Parser α} {f : α → Parser β} {e : Unit} {s t : State}
    (h : m s = .error e t) : (m >>= f) s = .error e t := by
  change EStateM.bind m f s = _
  rw [EStateM.bind, h]

/-- A value cut to 32 bits. -/
def u32 (n : Nat) : Nat := n % 2 ^ 32

/-- A value cut to 64 bits. -/
def u64 (n : Nat) : Nat := n % 2 ^ 64

/-- A turn of a loop. -/
def turn : Parser Unit :=
  modify fun s => { s with work := { s.work with turns := s.work.turns + 1 } }

/-- So many turns of a loop that reads nothing. -/
def turns (n : Nat) : Parser Unit :=
  modify fun s => { s with work := { s.work with turns := s.work.turns + n } }

/-- The log of a record whose abbreviation has so many operands that take no bits. -/
def logLiterals (count : Nat) : Parser Unit :=
  modify fun s => { s with work := { s.work with literals := s.work.literals ++ [count] } }

/-! ## Bits -/

/-- The end of a part of a stream, where it is inside the limit. -/
def checkedAdd64 (offset size limit : Nat) : Option Nat :=
  if limit < offset ∨ limit - offset < size then none else some (offset + size)

variable (data : List Byte)

/-- `bit_limit_`. -/
def bitLimit : Nat := 8 * data.length

/-- The log of an abbreviation before its operands are read, with the capacity given to `reserve`.
-/
def logDeclared (count : Nat) : Parser Unit :=
  modify fun s =>
    { s with
      work :=
        { s.work with
          declared := s.work.declared ++ [(count, bitLimit data - s.offset)]
          unfinished := s.work.unfinished + 1 } }

/-- The log of an abbreviation behind its operands. -/
def logFinished : Parser Unit :=
  modify fun s => { s with work := { s.work with unfinished := s.work.unfinished - 1 } }

/-- `readBits`: up to 64 bits, the first one the lowest. -/
def readBits (width : Nat) : Parser Nat := fun s =>
  if 64 < width then .error () s
  else
    match checkedAdd64 s.offset width (bitLimit data) with
    | none => .error () s
    | some stop => .ok (readWord data s.offset width) { s with offset := stop }

/-- The loop of `readVbr`. A shift past 64 bits ends it. -/
def readVbrPieces (width : Nat) : Nat → Nat → Nat → Parser Nat
  | 0, _, _ => fail
  | fuel + 1, shift, value => do
    let piece ← readBits data width
    let payload := piece % 2 ^ (width - 1)
    if 64 ≤ shift ∨ u64 (payload <<< shift) >>> shift ≠ payload then fail
    else
      let value := value ||| u64 (payload <<< shift)
      if piece / 2 ^ (width - 1) % 2 = 0 then return value
      else readVbrPieces width fuel (shift + (width - 1)) value

/-- `readVbr`: pieces of a width, each with a bit that says whether another follows. -/
def readVbr (width : Nat) : Parser Nat :=
  if width < 2 ∨ 32 < width then fail else readVbrPieces data width 65 0 0

/-- `align32`: to the next word. -/
def align32 : Parser Unit := fun s =>
  let aligned := (s.offset + 31) / 32 * 32
  if bitLimit data < aligned then .error () s else .ok () { s with offset := aligned }

/-- `skipBits`. -/
def skipBits (bits : Nat) : Parser Unit := fun s =>
  match checkedAdd64 s.offset bits (bitLimit data) with
  | none => .error () s
  | some stop => .ok () { s with offset := stop }

/-- `seek`. -/
def seek (offset : Nat) : Parser Unit := fun s =>
  if bitLimit data < offset then .error () s else .ok () { s with offset }

/-! ## Abbreviations -/

/-- The loop of `readAbbrev`. -/
def readAbbrevOperands : Nat → Abbrev → Parser Abbrev
  | 0, operands => return operands
  | n + 1, operands => do
    turn
    let isLiteral ← readBits data 1
    if isLiteral ≠ 0 then
      let value ← readVbr data 8
      readAbbrevOperands n (operands ++ [⟨true, value, 0⟩])
    else
      let encoding ← readBits data 3
      if encoding < 1 ∨ 5 < encoding then fail
      else if encoding = 1 ∨ encoding = 2 then
        let value ← readVbr data 5
        readAbbrevOperands n (operands ++ [⟨false, value, encoding⟩])
      else readAbbrevOperands n (operands ++ [⟨false, 0, encoding⟩])

/-- `readAbbrev`. -/
def readAbbrev : Parser Abbrev := do
  let operandCount ← readVbr data 5
  logDeclared data operandCount
  let operands ← readAbbrevOperands data operandCount []
  logFinished
  return operands

/-- `readEncodedValue`: the widths of the operand are taken as 32 bits. -/
def readEncodedValue (operand : AbbrevOperand) : Parser Nat :=
  if operand.literal then return operand.value
  else
    match operand.encoding with
    | 1 => readBits data (u32 operand.value)
    | 2 => readVbr data (u32 operand.value)
    | 4 => readBits data 6
    | _ => fail

/-- The operand is read without a bit. -/
def AbbrevOperand.isFree (operand : AbbrevOperand) : Bool :=
  operand.literal || (operand.encoding == 1 && u32 operand.value == 0)

/-- The values of a record that are kept, and the count of its operands. -/
structure Values where
  kept : List Nat
  operandCount : Nat

/-- `pushRecordValue`: the first sixteen values are kept. -/
def Values.push (values : Values) (value : Nat) : Values where
  kept := if values.kept.length < 16 then values.kept ++ [value] else values.kept
  operandCount := u32 (values.operandCount + 1)

/-- The loop over the items of an array. -/
def readItems (operand : AbbrevOperand) : Nat → Values → Parser Values
  | 0, values => return values
  | n + 1, values => do
    turn
    let value ← readEncodedValue data operand
    readItems operand n (values.push value)

/-- The log of an array whose items are read without a bit. -/
def logItems (element : AbbrevOperand) (length : Nat) : Parser Unit :=
  if element.isFree then
    modify fun s =>
      { s with
        work := { s.work with arrays := s.work.arrays ++ [(length, bitLimit data - s.offset)] } }
  else return ()

/-- A blob counts as one operand. -/
def readBlob (values : Values) : Parser Values := do
  let length ← readVbr data 6
  if (2 ^ 64 - 1) / 8 < length then fail
  else
    align32 data
    skipBits data (length * 8)
    align32 data
    return { values with operandCount := u32 (values.operandCount + 1) }

/-- The loop of `readAbbreviatedRecord`. -/
def readAbbreviatedValues : Abbrev → Values → Parser Values
  | [], values => return values
  | operand :: rest, values => do
    turn
    if operand.literal then readAbbreviatedValues rest (values.push operand.value)
    else if operand.encoding = 3 then
      match rest with
      | [] => fail
      | element :: rest => do
        let length ← readVbr data 6
        logItems data element length
        let values ← readItems data element length values
        readAbbreviatedValues rest values
    else if operand.encoding = 5 then do
      let values ← readBlob data values
      readAbbreviatedValues rest values
    else do
      let value ← readEncodedValue data operand
      readAbbreviatedValues rest (values.push value)

/-! ## Records -/

/-- The loop over the operands of an unabbreviated record. -/
def readOperands : Nat → List Nat → Parser (List Nat)
  | 0, kept => return kept
  | n + 1, kept => do
    turn
    let value ← readVbr data 6
    readOperands n (if kept.length < 16 then kept ++ [value] else kept)

/-- The record that an abbreviation id stands before, and the values that are kept of it. -/
def readRecord (blockId : Nat) (abbrevs : List Abbrev) (abbrevId : Nat) :
    Parser (RecordInfo × List Nat) :=
  if abbrevId = 3 then do
    let code ← readVbr data 6
    let operandCount ← readVbr data 6
    let kept ← readOperands data operandCount [code]
    return (RecordInfo.mk blockId (u32 code) (u32 operandCount) false, kept)
  else
    match abbrevs[abbrevId - 4]? with
    | none => fail
    | some operands => do
      logLiterals (operands.countP AbbrevOperand.isFree)
      let values ← readAbbreviatedValues data operands (Values.mk [] 0)
      match values.kept with
      | [] => fail
      | code :: _ =>
        let operandCount := if 0 < values.operandCount then values.operandCount - 1 else 0
        return (RecordInfo.mk blockId (u32 code) operandCount true, values.kept)

/-! ## Blocks -/

/-- `findBlockInfoAbbrevs`: the abbreviations that BLOCKINFO has registered for a block id. -/
def findBlockInfoAbbrevs (blockId : Nat) : List (Nat × List Abbrev) → List Abbrev
  | [] => []
  | entry :: rest => if entry.1 = blockId then entry.2 else findBlockInfoAbbrevs blockId rest

/-- `addBlockInfoAbbrev`: one more of them. -/
def addBlockInfoAbbrev (blockId : Nat) (operands : Abbrev) :
    List (Nat × List Abbrev) → List (Nat × List Abbrev)
  | [] => [(blockId, [operands])]
  | entry :: rest =>
    if entry.1 = blockId then (entry.1, entry.2 ++ [operands]) :: rest
    else entry :: addBlockInfoAbbrev blockId operands rest

/-- What a copy of abbreviations copies: the abbreviations and their operands. -/
def copyTurns (abbrevs : List Abbrev) : Nat :=
  abbrevs.foldr (fun operands n => operands.length + 1 + n) 0

/-- The turns of `findBlockInfoAbbrevs`, with the copy that it returns. -/
def findTurns (blockId : Nat) : List (Nat × List Abbrev) → Nat
  | [] => 0
  | entry :: rest => if entry.1 = blockId then 1 + copyTurns entry.2 else 1 + findTurns blockId rest

/-- The turns of `addBlockInfoAbbrev`. -/
def addTurns (blockId : Nat) : List (Nat × List Abbrev) → Nat
  | [] => 0
  | entry :: rest => if entry.1 = blockId then 1 else 1 + addTurns blockId rest

/-- What stays the same in the loop over a block. -/
structure Block where
  id : Nat
  abbrevWidth : Nat
  depth : Nat
  endBit : Nat
  index : Nat

/-- `parseBlock` up to its loop: the block and its abbreviations. -/
def enterBlock (blockId abbrevWidth depth endBit : Nat) : Parser (Block × List Abbrev) := do
  if 64 < depth ∨ abbrevWidth = 0 ∨ 32 < abbrevWidth then fail
  else
    let s ← get
    modify fun s => { s with blocks := s.blocks ++ [⟨blockId, abbrevWidth, depth, s.offset, 0, 0⟩] }
    turns (findTurns blockId s.blockInfoAbbrevs)
    return (Block.mk blockId abbrevWidth depth endBit s.blocks.length,
      findBlockInfoAbbrevs blockId s.blockInfoAbbrevs)

/-- The end of a block is known. -/
def setEndBit (index endBit : Nat) : Parser Unit :=
  modify fun s => { s with blocks := s.blocks.modify index fun b => { b with endBit } }

/-- A record is counted for its block. -/
def pushRecord (index : Nat) (record : RecordInfo) : Parser Unit :=
  modify fun s =>
    { s with
      blocks := s.blocks.modify index fun b => { b with recordCount := u32 (b.recordCount + 1) }
      records := s.records ++ [record] }

/-- `addBlockInfoAbbrev` on the state. -/
def registerAbbrev (setBid : Nat) (operands : Abbrev) : Parser Unit := do
  let s ← get
  turns (addTurns setBid s.blockInfoAbbrevs)
  modify fun s =>
    { s with blockInfoAbbrevs := addBlockInfoAbbrev setBid operands s.blockInfoAbbrevs }

/-- The header of a sub-block: its id, the width of its abbreviation ids and its words. -/
def readBlockHeader : Parser (Nat × Nat × Nat) := do
  let childBlockId ← readVbr data 8
  let childAbbrevWidth ← readVbr data 4
  align32 data
  let childBlockWords ← readBits data 32
  return (childBlockId, childAbbrevWidth, childBlockWords)

/-- The id that a record of BLOCKINFO sets. -/
def nextSetBid (blockId setBid : Nat) (record : RecordInfo) (kept : List Nat) : Nat :=
  if blockId = 0 ∧ record.code = 1 then
    match kept with
    | _ :: id :: _ => u32 id
    | _ => setBid
  else setBid

/-- END_BLOCK. -/
def endBlock (block : Block) : Parser Unit := do
  align32 data
  let s ← get
  if block.endBit < s.offset then fail else setEndBit block.index s.offset

/-- ENTER_SUBBLOCK, with the loop of `parseBlock` for the block inside. -/
def parseSubBlock (parseBlock : Block → List Abbrev → Nat → Parser Unit) (block : Block) :
    Parser Unit := do
  let (childBlockId, childAbbrevWidth, childBlockWords) ← readBlockHeader data
  let s ← get
  match checkedAdd64 s.offset (childBlockWords * 32) block.endBit with
  | none => fail
  | some childEnd => do
    let (child, childAbbrevs) ←
      enterBlock (u32 childBlockId) (u32 childAbbrevWidth) (block.depth + 1) childEnd
    parseBlock child childAbbrevs 0
    let s ← get
    if childEnd < s.offset then fail else seek data childEnd

/-- DEFINE_ABBREV: the abbreviations of the block behind it. -/
def defineAbbrev (block : Block) (abbrevs : List Abbrev) (setBid : Nat) :
    Parser (List Abbrev) := do
  let operands ← readAbbrev data
  if block.id = 0 ∧ setBid ≠ 0 then do
    registerAbbrev setBid operands
    return abbrevs
  else return abbrevs ++ [operands]

/-- A record: the id that DEFINE_ABBREV registers for behind it. -/
def addRecord (block : Block) (abbrevs : List Abbrev) (setBid abbrevId : Nat) : Parser Nat := do
  let (record, kept) ← readRecord data block.id abbrevs abbrevId
  pushRecord block.index record
  return nextSetBid block.id setBid record kept

/-- The loop of `parseBlock`, and the blocks inside. Each turn reads a bit at least, so that the
bits of the stream are enough turns. -/
def parseItems : Nat → Block → List Abbrev → Nat → Parser Unit
  | 0, _, _, _ => fail
  | fuel + 1, block, abbrevs, setBid => do
    let s ← get
    if s.offset < block.endBit then
      turn
      let abbrevId ← readBits data block.abbrevWidth
      if abbrevId = 0 then endBlock data block
      else if abbrevId = 1 then
        parseSubBlock data (parseItems fuel) block
        parseItems fuel block abbrevs setBid
      else if abbrevId = 2 then
        let abbrevs ← defineAbbrev data block abbrevs setBid
        parseItems fuel block abbrevs setBid
      else
        let setBid ← addRecord data block abbrevs setBid abbrevId
        parseItems fuel block abbrevs setBid
    else if s.offset ≠ block.endBit then fail
    else setEndBit block.index block.endBit

/-- The bytes `BC`, `0xc0` and `0xde`. -/
def kBitcodeMagicValue : Nat := 0xdec04342

/-- `BitcodeParser::parse`. The block around the whole stream has no id of its own. -/
def parse (fuel : Nat) : Parser Unit := do
  let magic ← readBits data 32
  if magic ≠ kBitcodeMagicValue then fail
  else
    let (block, abbrevs) ← enterBlock (2 ^ 32 - 1) 2 0 (bitLimit data)
    parseItems data fuel block abbrevs 0

/-- The parser before it reads. -/
def State.start : State := ⟨0, [], [], [], ⟨0, [], 0, [], []⟩⟩

/-- A turn for each bit is enough. -/
def runBitcodeParser : EStateM.Result Unit State Unit := parse data (bitLimit data + 1) State.start

/-! ## The wrapper -/

/-- `BitcodeInfo`. -/
structure BitcodeInfo where
  magic : Nat
  hasWrapper : Bool
  wrapperVersion : Word
  wrapperOffset : Word
  wrapperSize : Word
  wrapperCpuType : Word
  blocks : List BlockInfo
  records : List RecordInfo

/-- The magic number of a wrapper around the stream. -/
def kBitcodeWrapperMagicValue : Word := 0x0b17c0de

/-- `ExtractBitstream`: the stream, and whether it has a wrapper. -/
def extractBitstream : Option (List Byte × Bool) :=
  if data.length < 4 then none
  else if readU32 data 0 ≠ kBitcodeWrapperMagicValue then some (data, false)
  else if data.length < 20 then none
  else
    (checkedEnd (readU32 data 8).toNat (readU32 data 12).toNat data.length).map fun _ =>
      ((data.drop (readU32 data 8).toNat).take (readU32 data 12).toNat, true)

/-- What the parser says of a stream. -/
def infoOf (wrapped : Bool) : EStateM.Result Unit State Unit → Option BitcodeInfo
  | .ok _ s =>
    some
      { magic := kBitcodeMagicValue
        hasWrapper := wrapped
        wrapperVersion := if wrapped then readU32 data 4 else 0
        wrapperOffset := if wrapped then readU32 data 8 else 0
        wrapperSize := if wrapped then readU32 data 12 else 0
        wrapperCpuType := if wrapped then readU32 data 16 else 0
        blocks := s.blocks
        records := s.records }
  | .error _ _ => none

/-- `ParseBitcode`. -/
def parseBitcode : Option BitcodeInfo :=
  (extractBitstream data).bind fun stream => infoOf data stream.2 (runBitcodeParser stream.1)

end Bitcode

end Dxmt
