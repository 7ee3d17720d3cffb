import Dxmt.BitcodeReads
import Dxmt.BitcodeWork

/-!
# Parsing undoes writing

The parser reads a written stream item by item: `parses_items` goes from the state before the items
of a block to the one behind them, by induction on the items. `exact_iff_fits`: what it gives back
is what was written, if and only if each record has a code and a count that the parser keeps.
-/

namespace Dxmt

namespace Bitcode

open Bitstream

variable {data : List Byte}

/-! ## Registered abbreviations -/

/-- What is found for a block after an abbreviation was added for one. -/
theorem find_add (target id : Nat) (operands : Abbrev) (table : List (Nat × List Abbrev)) :
    findBlockInfoAbbrevs id (addBlockInfoAbbrev target operands table) =
      findBlockInfoAbbrevs id table ++ if id = target then [operands] else [] := by
  induction table with
  | nil =>
    rw [addBlockInfoAbbrev, findBlockInfoAbbrevs, findBlockInfoAbbrevs]
    by_cases h : id = target
    · rw [if_pos h, if_pos h.symm]
      rfl
    · rw [if_neg h, if_neg (Ne.symm h)]
      rfl
  | cons entry table ih =>
    rw [addBlockInfoAbbrev]
    by_cases hentry : entry.1 = target
    · rw [if_pos hentry, findBlockInfoAbbrevs, findBlockInfoAbbrevs]
      by_cases hid : entry.1 = id
      · rw [if_pos hid, if_pos hid, if_pos (hid.symm.trans hentry)]
      · rw [if_neg hid, if_neg hid, if_neg fun h => hid (hentry.trans h.symm), List.append_nil]
    · rw [if_neg hentry, findBlockInfoAbbrevs, findBlockInfoAbbrevs]
      by_cases hid : entry.1 = id
      · rw [if_pos hid, if_pos hid, if_neg fun h => hentry (hid.trans h), List.append_nil]
      · rw [if_neg hid, if_neg hid, ih]

/-- The parser has the registered abbreviations of every block id but that of BLOCKINFO itself. -/
structure Registers (table : List (Nat × List Abbrev)) (registered : Registry) : Prop where
  find : ∀ id ≠ 0, findBlockInfoAbbrevs id table = (registered id).map toAbbrev
  valid : ∀ id, ∀ ops ∈ registered id, ValidAbbrev ops

theorem Registry.add_apply (registered : Registry) (target id : Nat) (ops : List Op) :
    registered.add target ops id = registered id ++ if id = target then [ops] else [] := by
  rw [Registry.add, Function.update_apply]
  by_cases h : id = target
  · rw [if_pos h, if_pos h, h]
  · rw [if_neg h, if_neg h, List.append_nil]

variable {table : List (Nat × List Abbrev)} {registered : Registry} {ops : List Op}

theorem Registers.valid_add (h : Registers table registered) (hops : ValidAbbrev ops)
    (target id : Nat) :
    ∀ ops' ∈ registered.add target ops id, ValidAbbrev ops' := by
  intro ops' hmem
  rw [Registry.add_apply] at hmem
  obtain hold | hnew := List.mem_append.mp hmem
  · exact h.valid id ops' hold
  · split at hnew
    · rwa [List.mem_singleton.mp hnew]
    · exact absurd hnew List.not_mem_nil

theorem Registers.add (h : Registers table registered) (hops : ValidAbbrev ops) (target : Nat) :
    Registers (addBlockInfoAbbrev target (toAbbrev ops) table) (registered.add target ops) where
  find := by
    intro id hid
    rw [find_add, Registry.add_apply, h.find id hid, List.map_append]
    split
    · rfl
    · rfl
  valid := h.valid_add hops target

/-- What is registered for BLOCKINFO itself, the parser does not register. -/
theorem Registers.add_zero (h : Registers table registered) (hops : ValidAbbrev ops) :
    Registers table (registered.add 0 ops) where
  find := by
    intro id hid
    rw [Registry.add_apply, if_neg hid, List.append_nil]
    exact h.find id hid
  valid := h.valid_add hops 0

/-- The abbreviations of a block, and the id that is set in it. In BLOCKINFO the parser may have
others, which no record is written with. -/
structure Agrees (id : Nat) (abbrevs : List Abbrev) (setBid : Nat) (scope : List (List Op))
    (bid : Option Nat) : Prop where
  inScope : id ≠ 0 → abbrevs = scope.map toAbbrev
  current : setBid = bid.getD 0
  valid : ∀ ops ∈ scope, ValidAbbrev ops

/-! ## The states -/

/-- A change that keeps the range of a block keeps them all. -/
theorem map_range_modify (blocks : List BlockInfo) (index : Nat) {g : BlockInfo → BlockInfo}
    (h : ∀ block, (g block).range = block.range) :
    (blocks.modify index g).map BlockInfo.range = blocks.map BlockInfo.range := by
  induction blocks generalizing index with
  | nil => rw [List.modify_nil]
  | cons block blocks ih =>
    cases index with
    | zero => simp [h]
    | succ index => simp [ih]

/-- The end of the block that is entered at a place. -/
theorem map_range_setEndBit {blocks : List BlockInfo} {before after : List Range}
    {index id depth startBit : Nat} (endBit : Nat)
    (h : blocks.map BlockInfo.range = before ++ ⟨id, depth, startBit, 0⟩ :: after)
    (hindex : index = before.length) :
    (blocks.modify index fun b => { b with endBit }).map BlockInfo.range =
      before ++ ⟨id, depth, startBit, endBit⟩ :: after := by
  induction before generalizing blocks index with
  | nil =>
    obtain rfl := hindex
    obtain ⟨block, blocks, rfl, hblock, hblocks⟩ := List.map_eq_cons_iff.mp h
    rw [List.length_nil, List.modify_zero_cons, List.map_cons, hblocks]
    congr 1
    rw [BlockInfo.range, Range.mk.injEq] at hblock ⊢
    exact ⟨hblock.1, hblock.2.1, hblock.2.2.1, rfl⟩
  | cons range before ih =>
    obtain rfl := hindex
    obtain ⟨block, blocks, rfl, hblock, hblocks⟩ := List.map_eq_cons_iff.mp h
    rw [List.length_cons, List.modify_succ_cons, List.map_cons, hblock, ih hblocks rfl]
    rfl

/-! ## A turn -/

variable {block : Block} {abbrevs : List Abbrev} {setBid : Nat} {scope : List (List Op)}
  {bid : Option Nat} {s t : State} {fuel : Nat}

variable (data) in
/-- The rest of a turn, behind the abbreviation id of an item. -/
def afterId (fuel : Nat) (block : Block) (abbrevs : List Abbrev) (setBid n : Nat) : Parser Unit :=
  if n = 0 then endBlock data block
  else if n = 1 then
    parseSubBlock data (parseItems data fuel) block >>= fun _ =>
      parseItems data fuel block abbrevs setBid
  else if n = 2 then
    defineAbbrev data block abbrevs setBid >>= fun abbrevs =>
      parseItems data fuel block abbrevs setBid
  else
    addRecord data block abbrevs setBid n >>= fun setBid =>
      parseItems data fuel block abbrevs setBid

/-- The next item's number is read back. -/
theorem parseItems_id (fuel : Nat) (abbrevs : List Abbrev) (setBid : Nat) {n : Nat}
    (hmore : s.offset < block.endBit) (hwidth : block.abbrevWidth ≤ 32)
    (hn : n < 2 ^ block.abbrevWidth) (hat : At data s.offset (fixed block.abbrevWidth n)) :
    ∃ work, parseItems data (fuel + 1) block abbrevs setBid s =
      afterId data fuel block abbrevs setBid n (s.goTo (s.offset + block.abbrevWidth) work) := by
  obtain ⟨logged, hlogged⟩ : ∃ logged, turn s = .ok () (s.goTo s.offset logged) := ⟨_, rfl⟩
  obtain ⟨work, hread⟩ := reads_readBits (by omega) hn (s.goTo s.offset logged) hat
  rw [Writer.stop_put, length_fixed] at hread
  refine ⟨work, ?_⟩
  rw [parseItems]
  change ((if s.offset < block.endBit then _ else _ : Parser Unit) s) = _
  rw [if_pos hmore, bind_ok hlogged]
  exact bind_ok hread

/-! ## The items of a block -/

namespace Items

/-- The items of a block itself. -/
def length : Items → Nat
  | nil => 0
  | record _ _ rest => rest.length + 1
  | abbreviated _ _ _ rest => rest.length + 1
  | define _ rest => rest.length + 1
  | .block _ _ _ rest => rest.length + 1

/-- The items of a block with those of the blocks inside. -/
def size : Items → Nat
  | nil => 0
  | record _ _ rest => rest.size + 1
  | abbreviated _ _ _ rest => rest.size + 1
  | define _ rest => rest.size + 1
  | .block _ _ body rest => body.size + 1 + rest.size + 1

theorem length_le_size (items : Items) : items.length ≤ items.size := by
  induction items with
  | nil => exact le_rfl
  | record code operands rest ih => exact Nat.succ_le_succ ih
  | abbreviated index ops fields rest ih => exact Nat.succ_le_succ ih
  | define ops rest ih => exact Nat.succ_le_succ ih
  | block id width body rest _ ih => exact Nat.succ_le_succ (ih.trans (Nat.le_add_left _ _))

end Items

variable (data) in
/-- The items stand in the stream of a block, from a state on. -/
structure Ready (items : Items) (block : Block) (bid : Option Nat) (scope : List (List Op))
    (registered : Registry) (s : State) : Prop where
  low : 2 ≤ block.abbrevWidth
  high : block.abbrevWidth ≤ 32
  valid : items.Valid block.id block.abbrevWidth block.depth bid scope registered
  sized : items.Sized block.abbrevWidth s.offset
  plain : items.PlainInfo block.id
  written : At data s.offset (items.write block.abbrevWidth s.offset)
  stop : (items.write block.abbrevWidth).stop s.offset ≤ block.endBit

/-- What the items of a block have left in the state. -/
structure Left (items : Items) (block : Block) (bid : Option Nat) (registered : Registry)
    (s t : State) : Prop where
  offset : t.offset = (items.write block.abbrevWidth).stop s.offset
  blocks : t.blocks.map BlockInfo.range =
    s.blocks.map BlockInfo.range ++ items.ranges block.abbrevWidth block.depth s.offset
  records : t.records = s.records ++ (items.entries block.id).map Entry.parsed
  table : Registers t.blockInfoAbbrevs (items.registry block.id bid registered)

/-- A record that the parser has read. -/
structure Added (w : Writer) (record : RecordInfo) (s t : State) : Prop where
  offset : t.offset = w.stop s.offset
  blocks : t.blocks.map BlockInfo.range = s.blocks.map BlockInfo.range
  records : t.records = s.records ++ [record]
  table : t.blockInfoAbbrevs = s.blockInfoAbbrevs

/-- A record that is read back is added. -/
theorem addRecord_of_reads (setBid : Nat) {n : Nat} {w : Writer} {record : RecordInfo}
    {kept : List Nat} (h : Reads data (readRecord data block.id abbrevs n) w (record, kept))
    (hat : At data s.offset (w s.offset)) :
    ∃ t, addRecord data block abbrevs setBid n s = .ok (nextSetBid block.id setBid record kept) t ∧
      Added w record s t := by
  obtain ⟨work, hread⟩ := h s hat
  have hadd : addRecord data block abbrevs setBid n s = .ok _ _ := bind_ok hread
  exact ⟨_, hadd, rfl, map_range_modify _ _ fun _ => rfl, rfl, rfl⟩

/-- The id that the parser has set behind an unabbreviated record. -/
theorem nextSetBid_record {id code : Nat} {operands : List Nat} (hcode : code < 2 ^ 32)
    (hset : setBid = bid.getD 0) :
    nextSetBid id setBid (Entry.mk id code none operands.length false).parsed
        (code :: operands.take 15) =
      (nextBid id bid code operands).getD 0 := by
  have hparsed : (Entry.mk id code none operands.length false).parsed.code = code := u32_of_lt hcode
  unfold nextSetBid nextBid
  rw [hparsed]
  split
  · cases operands with
    | nil => exact hset
    | cons target operands => rfl
  · exact hset

variable {items rest : Items}

/-- The abbreviation id of the first item, and what stands behind it. -/
theorem Ready.turn (h : Ready data items block bid scope registered s) {w : Writer} {n : Nat}
    (hn : n < 2 ^ block.abbrevWidth)
    (hwrite : items.write block.abbrevWidth = (Writer.put (fixed block.abbrevWidth n)).andThen w)
    (fuel : Nat) (abbrevs : List Abbrev) (setBid : Nat) :
    ∃ work, parseItems data (fuel + 1) block abbrevs setBid s =
        afterId data fuel block abbrevs setBid n (s.goTo (s.offset + block.abbrevWidth) work) ∧
      At data (s.offset + block.abbrevWidth) (w (s.offset + block.abbrevWidth)) := by
  have hstop := h.stop
  have hwritten := h.written
  have hlow := h.low
  rw [hwrite, Writer.stop_andThen, Writer.stop_fixed] at hstop
  rw [hwrite, Writer.at_andThen, Writer.stop_fixed] at hwritten
  have hle := Writer.le_stop w (s.offset + block.abbrevWidth)
  obtain ⟨work, hturn⟩ := parseItems_id fuel abbrevs setBid (by omega) h.high hn hwritten.1
  exact ⟨work, hturn, hwritten.2⟩

theorem small_id {n width : Nat} (hn : n < 4) (hlow : 2 ≤ width) : n < 2 ^ width :=
  (show n < 2 ^ 2 from hn).trans_le (Nat.pow_le_pow_right (by decide) hlow)

/-- A record without an abbreviation is read back. -/
theorem parseItems_record (fuel : Nat) {code : Nat} {operands : List Nat}
    (h : Ready data (.record code operands rest) block bid scope registered s)
    (hagrees : Agrees block.id abbrevs setBid scope bid) :
    ∃ setBid' t,
      parseItems data (fuel + 1) block abbrevs setBid s =
          parseItems data fuel block abbrevs setBid' t ∧
        Added (writeRecord block.abbrevWidth code operands)
          (Entry.mk block.id code none operands.length false).parsed s t ∧
        Agrees block.id abbrevs setBid' scope (nextBid block.id bid code operands) := by
  obtain ⟨hcode, hlength, hoperands, -⟩ := h.valid
  have hwrite : writeRecord block.abbrevWidth code operands =
      (Writer.put (fixed block.abbrevWidth 3)).andThen
        (.put (vbr 6 code ++ vbr 6 operands.length ++ operands.flatMap (vbr 6))) := by
    rw [writeRecord, ← Writer.put_append, List.append_assoc, List.append_assoc, List.append_assoc]
  obtain ⟨work, hturn, hbehind⟩ := h.turn (small_id (n := 3) (by decide) h.low)
    (by rw [Items.write, hwrite, Writer.andThen_assoc]) fuel abbrevs setBid
  obtain ⟨hrecord, -⟩ := Writer.at_andThen.mp hbehind
  obtain ⟨t, hadd, hadded⟩ := addRecord_of_reads (s := s.goTo (s.offset + block.abbrevWidth) work)
    setBid (reads_readRecord block.id abbrevs hcode hlength hoperands) hrecord
  refine ⟨_, t, hturn.trans (bind_ok hadd), ⟨?_, hadded.blocks, hadded.records, hadded.table⟩,
    ⟨hagrees.inScope, ?_, hagrees.valid⟩⟩
  · rw [hadded.offset, hwrite, Writer.stop_andThen, Writer.stop_fixed]
  · exact nextSetBid_record hcode hagrees.current

/-- A record by an abbreviation is read back. -/
theorem parseItems_abbreviated (fuel : Nat) {index : Nat} {fields : List Field}
    (h : Ready data (.abbreviated index ops fields rest) block bid scope registered s)
    (hagrees : Agrees block.id abbrevs setBid scope bid) :
    ∃ t,
      parseItems data (fuel + 1) block abbrevs setBid s =
          parseItems data fuel block abbrevs setBid t ∧
        Added (writeAbbreviated block.abbrevWidth index ops fields)
          (abbreviatedEntry block.id ops fields).parsed s t := by
  obtain ⟨hindex, hfits, htakes, -, -⟩ := h.valid
  obtain ⟨hinfo, -⟩ := h.plain
  obtain ⟨work, hturn, hbehind⟩ := h.turn hfits
    (by rw [Items.write, writeAbbreviated, Writer.andThen_assoc]) fuel abbrevs setBid
  obtain ⟨hrecord, -⟩ := Writer.at_andThen.mp hbehind
  have hfound : abbrevs[index]? = some (toAbbrev ops) := by
    rw [hagrees.inScope hinfo, List.getElem?_map, hindex]
    rfl
  have hops := hagrees.valid ops (List.mem_of_getElem? hindex)
  have hexists : ∃ kept, Reads data (readRecord data block.id abbrevs (index + 4)) _ (_, kept) :=
    reads_readRecord_abbreviated block.id hfound hops htakes
  obtain ⟨kept, hread⟩ := hexists
  obtain ⟨t, hadd, hadded⟩ := addRecord_of_reads (s := s.goTo (s.offset + block.abbrevWidth) work)
    setBid hread hrecord
  have hsame : nextSetBid block.id setBid (abbreviatedEntry block.id ops fields).parsed kept =
      setBid :=
    if_neg fun hzero => hinfo hzero.1
  rw [hsame] at hadd
  have hnot : ¬ index + 4 = 0 ∧ ¬ index + 4 = 1 ∧ ¬ index + 4 = 2 := by omega
  rw [afterId, if_neg hnot.1, if_neg hnot.2.1, if_neg hnot.2.2, bind_ok hadd] at hturn
  refine ⟨t, hturn, ⟨?_, hadded.blocks, hadded.records, hadded.table⟩⟩
  rw [hadded.offset, writeAbbreviated, Writer.stop_andThen, Writer.stop_fixed]

/-- An abbreviation that the parser has read. -/
structure Defined (w : Writer) (s t : State) : Prop where
  offset : t.offset = w.stop s.offset
  blocks : t.blocks = s.blocks
  records : t.records = s.records

/-- A definition that is read back counts for its block, or for the one that `SETBID` names. -/
theorem defineAbbrev_of_reads {w : Writer} (hops : ValidAbbrev ops)
    (hread : Reads data (readAbbrev data) w (toAbbrev ops)) (hat : At data s.offset (w s.offset))
    (hagrees : Agrees block.id abbrevs setBid scope bid)
    (htable : Registers s.blockInfoAbbrevs registered) (hbid : block.id = 0 → bid.isSome) :
    ∃ abbrevs' t, defineAbbrev data block abbrevs setBid s = .ok abbrevs' t ∧ Defined w s t ∧
      Agrees block.id abbrevs' setBid (scopeAfter block.id scope ops) bid ∧
        Registers t.blockInfoAbbrevs (registryAfter block.id bid registered ops) := by
  obtain ⟨work, hread⟩ := hread s hat
  have hdefine : defineAbbrev data block abbrevs setBid s = _ := bind_ok hread
  by_cases hinfo : block.id = 0
  · obtain ⟨target, rfl⟩ := Option.isSome_iff_exists.mp (hbid hinfo)
    have hcurrent : setBid = target := hagrees.current
    have hagrees' : ∀ abbrevs', Agrees block.id abbrevs' setBid scope (some target) :=
      fun _ => ⟨fun h => absurd hinfo h, hcurrent, hagrees.valid⟩
    rw [scopeAfter, registryAfter, if_pos hinfo, if_pos hinfo, Option.elim_some]
    by_cases htarget : target = 0
    · -- the parser takes the abbreviation for one of the block
      rw [if_neg fun h => h.2 (hcurrent.trans htarget)] at hdefine
      refine ⟨_, _, hdefine, ⟨rfl, rfl, rfl⟩, hagrees' _, ?_⟩
      rw [htarget]
      exact htable.add_zero hops
    · rw [if_pos ⟨hinfo, fun h => htarget (hcurrent.symm.trans h)⟩] at hdefine
      refine ⟨_, _, hdefine, ⟨rfl, rfl, rfl⟩, hagrees' _, ?_⟩
      rw [← hcurrent]
      exact htable.add hops setBid
  · rw [if_neg fun h => hinfo h.1] at hdefine
    rw [scopeAfter, registryAfter, if_neg hinfo, if_neg hinfo]
    refine ⟨_, _, hdefine, ⟨rfl, rfl, rfl⟩, ⟨fun h => ?_, hagrees.current, fun ops' hmem => ?_⟩,
      htable⟩
    · rw [List.map_append, ← hagrees.inScope h]
      rfl
    · obtain hold | hnew := List.mem_append.mp hmem
      · exact hagrees.valid ops' hold
      · rwa [List.mem_singleton.mp hnew]

/-- A definition is read back. -/
theorem parseItems_define (fuel : Nat)
    (h : Ready data (.define ops rest) block bid scope registered s)
    (hagrees : Agrees block.id abbrevs setBid scope bid)
    (htable : Registers s.blockInfoAbbrevs registered) :
    ∃ abbrevs' t,
      parseItems data (fuel + 1) block abbrevs setBid s =
          parseItems data fuel block abbrevs' setBid t ∧
        Defined (writeDefine block.abbrevWidth ops) s t ∧
          Agrees block.id abbrevs' setBid (scopeAfter block.id scope ops) bid ∧
            Registers t.blockInfoAbbrevs (registryAfter block.id bid registered ops) := by
  obtain ⟨hops, hbid, -⟩ := h.valid
  have hwrite : writeDefine block.abbrevWidth ops =
      (Writer.put (fixed block.abbrevWidth 2)).andThen
        (.put (vbr 5 (toAbbrev ops).length ++ (toAbbrev ops).flatMap AbbrevOperand.bits)) := by
    rw [writeDefine, ← Writer.put_append, List.append_assoc]
  obtain ⟨work, hturn, hbehind⟩ := h.turn (small_id (n := 2) (by decide) h.low)
    (by rw [Items.write, hwrite, Writer.andThen_assoc]) fuel abbrevs setBid
  obtain ⟨hwritten, -⟩ := Writer.at_andThen.mp hbehind
  obtain ⟨abbrevs', t, hdefine, hdefined, hagrees', htable'⟩ :=
    defineAbbrev_of_reads (s := s.goTo (s.offset + block.abbrevWidth) work) hops
      (reads_readAbbrev hops) hwritten hagrees htable hbid
  refine ⟨abbrevs', t, hturn.trans (bind_ok hdefine), ⟨?_, hdefined.blocks, hdefined.records⟩,
    hagrees', htable'⟩
  rw [hdefined.offset, hwrite, Writer.stop_andThen, Writer.stop_fixed]

/-! ## Blocks -/

theorem align_stop (offset : Nat) : Writer.align.stop offset % 32 = 0 := offset_padding offset

theorem endBlock_write (hat : At data s.offset (Writer.align s.offset))
    (hstop : Writer.align.stop s.offset ≤ block.endBit) :
    ∃ work, endBlock data block s = .ok ()
      { s with
        offset := Writer.align.stop s.offset
        blocks := s.blocks.modify block.index fun b =>
          { b with endBit := Writer.align.stop s.offset }
        work } := by
  obtain ⟨work, halign⟩ := reads_align32 s hat
  refine ⟨work, ?_⟩
  rw [endBlock, bind_ok halign]
  change (if block.endBit < Writer.align.stop s.offset then fail
    else setEndBit block.index (Writer.align.stop s.offset)) _ = _
  rw [if_neg (not_lt.mpr hstop)]
  rfl

/-- The end of a block is read back. -/
theorem parseItems_end (fuel : Nat) (abbrevs : List Abbrev) (setBid : Nat)
    (hlow : 2 ≤ block.abbrevWidth) (hhigh : block.abbrevWidth ≤ 32)
    (hat : At data s.offset (writeEnd block.abbrevWidth s.offset))
    (hstop : (writeEnd block.abbrevWidth).stop s.offset ≤ block.endBit) :
    ∃ work, parseItems data (fuel + 1) block abbrevs setBid s = .ok ()
      { s with
        offset := (writeEnd block.abbrevWidth).stop s.offset
        blocks := s.blocks.modify block.index fun b =>
          { b with endBit := (writeEnd block.abbrevWidth).stop s.offset }
        work } := by
  rw [writeEnd, Writer.stop_andThen, Writer.stop_fixed] at hstop ⊢
  rw [writeEnd, Writer.at_andThen, Writer.stop_fixed] at hat
  have hle := Writer.le_stop .align (s.offset + block.abbrevWidth)
  obtain ⟨work, hturn⟩ := parseItems_id fuel abbrevs setBid (by omega) hhigh
    (small_id (n := 0) (by decide) hlow) hat.1
  obtain ⟨work', hend⟩ :=
    endBlock_write (s := s.goTo (s.offset + block.abbrevWidth) work) hat.2 hstop
  exact ⟨work', hturn.trans hend⟩

variable (data) in
/-- The parser goes through the items, wherever they stand. -/
def Parses (items : Items) : Prop :=
  ∀ {block : Block} (abbrevs : List Abbrev) (setBid : Nat) {bid : Option Nat}
    {scope : List (List Op)} {registered : Registry} {s : State} {fuel : Nat},
    Ready data items block bid scope registered s → Agrees block.id abbrevs setBid scope bid →
      Registers s.blockInfoAbbrevs registered → items.size ≤ fuel →
        ∃ abbrevs' setBid' t,
          parseItems data fuel block abbrevs setBid s =
              parseItems data (fuel - items.length) block abbrevs' setBid' t ∧
            Left items block bid registered s t

/-- The block inside at the head of the items, from the place behind its abbreviation id. -/
theorem readBlockHeader_write {id width words : Nat} (hid : id < 2 ^ 32) (hwidth : width ≤ 32)
    (hwords : words < 2 ^ 32) :
    Reads data (readBlockHeader data)
      ((Writer.put (vbr 8 id)).andThen
        ((Writer.put (vbr 4 width)).andThen (Writer.align.andThen (.put (fixed 32 words)))))
      (id, width, words) := by
  rw [readBlockHeader]
  refine Reads.bind (reads_readVbr (by decide) (by decide) (by omega)) ?_
  refine Reads.bind (reads_readVbr (by decide) (by decide) (by omega)) ?_
  refine Reads.bind reads_align32 ?_
  exact Reads.last (reads_readBits (by decide) hwords) (reads_pure _)

theorem enterBlock_eq {id width depth endBit : Nat} (hlow : 2 ≤ width) (hhigh : width ≤ 32)
    (hdepth : depth ≤ 64) (s : State) :
    enterBlock id width depth endBit s =
      .ok (⟨id, width, depth, endBit, s.blocks.length⟩, findBlockInfoAbbrevs id s.blockInfoAbbrevs)
        { s with
          blocks := s.blocks ++ [⟨id, width, depth, s.offset, 0, 0⟩]
          work :=
            { s.work with turns := s.work.turns + findTurns id s.blockInfoAbbrevs } } := by
  rw [enterBlock, if_neg (by omega)]
  rfl

/-- A sub-block in the stream, from the place behind its abbreviation id. -/
def subBlockWriter (id width : Nat) (body : Items) : Writer :=
  ((Writer.put (vbr 8 id ++ vbr 4 width)).andThen .align).andThen
    (Writer.sized ((body.write width).andThen (writeEnd width)))

/-- What a block has left in the state. -/
structure LeftBlock (id width depth : Nat) (body : Items) (start stop : Nat) (registered : Registry)
    (s t : State) : Prop where
  offset : t.offset = stop
  blocks : t.blocks.map BlockInfo.range =
    s.blocks.map BlockInfo.range ++ ⟨id, depth, start, stop⟩ :: body.ranges width depth start
  records : t.records = s.records ++ (body.entries id).map Entry.parsed
  table : Registers t.blockInfoAbbrevs (body.registry id none registered)

/-- The loop over the items of a block that has been entered, to its end. -/
theorem parseItems_block {body : Items} (hbody : Parses data body)
    (h : Ready data body block none (registered block.id) registered s)
    (hindex : block.index + 1 = s.blocks.length) {before : List Range} {start : Nat}
    (hblocks : s.blocks.map BlockInfo.range = before ++ [⟨block.id, block.depth, start, 0⟩])
    (hend : At data ((body.write block.abbrevWidth).stop s.offset)
      (writeEnd block.abbrevWidth ((body.write block.abbrevWidth).stop s.offset)))
    (hstop : body.blockStop block.abbrevWidth s.offset = block.endBit)
    (htable : Registers s.blockInfoAbbrevs registered) (hfuel : body.size + 1 ≤ fuel) :
    ∃ t,
      parseItems data fuel block (findBlockInfoAbbrevs block.id s.blockInfoAbbrevs) 0 s =
          .ok () t ∧
        t.offset = block.endBit ∧
          t.blocks.map BlockInfo.range =
            before ++ ⟨block.id, block.depth, start, block.endBit⟩ ::
              body.ranges block.abbrevWidth block.depth s.offset ∧
            t.records = s.records ++ (body.entries block.id).map Entry.parsed ∧
              Registers t.blockInfoAbbrevs (body.registry block.id none registered) := by
  obtain ⟨abbrevs', setBid', u, hparse, hleft⟩ :=
    hbody _ _ h ⟨htable.find block.id, rfl, htable.valid block.id⟩ htable (Nat.le_of_succ_le hfuel)
  obtain ⟨more, hmore⟩ : ∃ more, fuel - body.length = more + 1 :=
    Nat.exists_eq_succ_of_ne_zero (by have := body.length_le_size; omega)
  rw [Items.blockStop, Writer.stop_andThen, ← hleft.offset] at hstop
  rw [← hleft.offset] at hend
  obtain ⟨work, hlast⟩ := parseItems_end more abbrevs' setBid' h.low h.high hend hstop.le
  rw [hmore, hlast] at hparse
  refine ⟨_, hparse, hstop, ?_, hleft.records, hleft.table⟩
  have hplace : u.blocks.map BlockInfo.range = before ++ ⟨block.id, block.depth, start, 0⟩ ::
      body.ranges block.abbrevWidth block.depth s.offset := by
    rw [hleft.blocks, hblocks, List.append_assoc, List.singleton_append]
  have hlength : block.index = before.length := by
    have hsame := congrArg List.length hblocks
    rw [List.length_map, List.length_append, List.length_singleton] at hsame
    omega
  have hset := map_range_setEndBit ((writeEnd block.abbrevWidth).stop u.offset) hplace hlength
  rw [hstop] at hset ⊢
  exact hset

variable (data) in
/-- A sub-block stands in the stream of a block, from the place behind its abbreviation id. -/
structure ReadyBlock (id width : Nat) (body : Items) (block : Block) (registered : Registry)
    (start stop : Nat) (s : State) : Prop where
  idFits : id < 2 ^ 32
  low : 2 ≤ width
  high : width ≤ 32
  depth : block.depth + 1 ≤ 64
  written : At data s.offset (subBlockWriter id width body s.offset)
  atStart : ((Writer.put (vbr 8 id ++ vbr 4 width)).andThen .align).stop s.offset + 32 = start
  atStop : body.blockStop width start = stop
  words : (stop - start) / 32 < 2 ^ 32
  valid : body.Valid id width (block.depth + 1) none (registered id) registered
  sized : body.Sized width start
  plain : body.PlainInfo id
  inside : stop ≤ block.endBit

variable {id width start stop : Nat} {body : Items}

/-- The header, the number of words and the items of a sub-block. -/
theorem ReadyBlock.parts (h : ReadyBlock data id width body block registered start stop s) :
    At data s.offset (((Writer.put (vbr 8 id ++ vbr 4 width)).andThen
        (Writer.align.andThen (.put (fixed 32 ((stop - start) / 32))))) s.offset) ∧
      At data start (body.write width start) ∧
        At data ((body.write width).stop start)
          (writeEnd width ((body.write width).stop start)) := by
  have hat := h.written
  have hstop : ((body.write width).andThen (writeEnd width)).stop start = stop := h.atStop
  rw [subBlockWriter, Writer.at_andThen, Writer.sized, at_append, length_fixed, h.atStart,
    hstop] at hat
  obtain ⟨hheader, hcount, hinner⟩ := hat
  obtain ⟨hitems, hlast⟩ := Writer.at_andThen.mp hinner
  refine ⟨?_, hitems, hlast⟩
  rw [← Writer.andThen_assoc]
  exact Writer.at_andThen.mpr ⟨hheader, hcount⟩

/-- The header of a block is read back. -/
theorem ReadyBlock.header (h : ReadyBlock data id width body block registered start stop s) :
    ∃ work, readBlockHeader data s = .ok (id, width, (stop - start) / 32) (s.goTo start work) := by
  have hat := h.parts.1
  rw [Writer.put_append, Writer.andThen_assoc] at hat
  obtain ⟨work, hread⟩ := readBlockHeader_write h.idFits h.high h.words s hat
  refine ⟨work, hread.trans ?_⟩
  rw [← Writer.andThen_assoc, ← Writer.andThen_assoc, ← Writer.put_append, Writer.stop_andThen,
    Writer.stop_fixed, h.atStart]

/-- The words of a block are all of its bits. -/
theorem ReadyBlock.words_mul (h : ReadyBlock data id width body block registered start stop s) :
    start + (stop - start) / 32 * 32 = stop := by
  have hstart : start % 32 = 0 := by
    have halign := align_stop ((Writer.put (vbr 8 id ++ vbr 4 width)).stop s.offset)
    have hheader := h.atStart
    rw [Writer.stop_andThen] at hheader
    omega
  have hstop : stop % 32 = 0 := by
    rw [← h.atStop, Items.blockStop, writeEnd, Writer.stop_andThen, Writer.stop_andThen]
    exact align_stop _
  have hle : start ≤ stop := by
    rw [← h.atStop]
    exact Writer.le_stop _ _
  omega

/-- After the header the body can be read. -/
theorem ReadyBlock.body_ready (h : ReadyBlock data id width body block registered start stop s)
    (work : Work) (index : Nat) :
    Ready data body ⟨id, width, block.depth + 1, stop, index⟩ none (registered id) registered
      { s.goTo start work with
        blocks := s.blocks ++ [⟨id, width, block.depth + 1, start, 0, 0⟩] } where
  low := h.low
  high := h.high
  valid := h.valid
  sized := h.sized
  plain := h.plain
  written := h.parts.2.1
  stop := by
    change (body.write width).stop start ≤ stop
    rw [← h.atStop, Items.blockStop, Writer.stop_andThen]
    exact Writer.le_stop _ _

/-- A block is read back where its body is. -/
theorem parseSubBlock_write (h : ReadyBlock data id width body block registered start stop s)
    (hbody : Parses data body) (htable : Registers s.blockInfoAbbrevs registered)
    (hfuel : body.size + 1 ≤ fuel) :
    ∃ t, parseSubBlock data (parseItems data fuel) block s = .ok () t ∧
      LeftBlock id width (block.depth + 1) body start stop registered s t := by
  obtain ⟨work, hheader⟩ := h.header
  have hchild : checkedAdd64 start ((stop - start) / 32 * 32) block.endBit = some stop := by
    rw [checkedAdd64_of_le (h.words_mul.trans_le h.inside), h.words_mul]
  obtain ⟨t, hparse, hoffset, hblocks, hrecords, htable'⟩ :=
    parseItems_block hbody (h.body_ready
      { work with turns := work.turns + findTurns id s.blockInfoAbbrevs } s.blocks.length)
      (by rw [List.length_append, List.length_singleton]) (List.map_append ..) h.parts.2.2 h.atStop
      htable hfuel
  replace hoffset : t.offset = stop := hoffset
  have hlimit : stop ≤ bitLimit data := by
    rw [← h.atStop, Items.blockStop, Writer.stop_andThen]
    exact h.parts.2.2.inside
  refine ⟨{ t with offset := stop }, ?_, ⟨rfl, hblocks, hrecords, htable'⟩⟩
  rw [parseSubBlock, bind_ok hheader]
  simp only
  rw [bind_ok (m := get) rfl]
  simp only [hchild, u32_of_lt h.idFits, u32_of_lt (h.high.trans_lt (by decide))]
  rw [bind_ok (enterBlock_eq h.low h.high h.depth _), bind_ok hparse, bind_ok (m := get) rfl,
    hoffset, if_neg (lt_irrefl stop)]
  unfold seek
  rw [if_neg (not_lt.mpr hlimit)]

/-! ## Runs over items -/

/-- The items behind the first one stand where it ends. -/
theorem Ready.behind (h : Ready data items block bid scope registered s) {w : Writer}
    {bid' : Option Nat} {scope' : List (List Op)} {registered' : Registry}
    (hwrite : items.write block.abbrevWidth = w.andThen (rest.write block.abbrevWidth))
    (hoffset : t.offset = w.stop s.offset)
    (hvalid : rest.Valid block.id block.abbrevWidth block.depth bid' scope' registered')
    (hsized : rest.Sized block.abbrevWidth (w.stop s.offset)) (hplain : rest.PlainInfo block.id) :
    Ready data rest block bid' scope' registered' t := by
  have hwritten := h.written
  have hstop := h.stop
  rw [hwrite, Writer.at_andThen, ← hoffset] at hwritten
  rw [hwrite, Writer.stop_andThen, ← hoffset] at hstop
  rw [← hoffset] at hsized
  exact ⟨h.low, h.high, hvalid, hsized, hplain, hwritten.2, hstop⟩

theorem Left.of_added {w : Writer} {record : RecordInfo} {u : State} {bid' : Option Nat}
    {registered' : Registry} (hadded : Added w record s t)
    (hleft : Left rest block bid' registered' t u)
    (hstop : (items.write block.abbrevWidth).stop s.offset =
      (rest.write block.abbrevWidth).stop (w.stop s.offset))
    (hranges : items.ranges block.abbrevWidth block.depth s.offset =
      rest.ranges block.abbrevWidth block.depth (w.stop s.offset))
    (hentries : (items.entries block.id).map Entry.parsed =
      record :: (rest.entries block.id).map Entry.parsed)
    (hregistry : items.registry block.id bid registered = rest.registry block.id bid' registered') :
    Left items block bid registered s u where
  offset := by rw [hleft.offset, hadded.offset, hstop]
  blocks := by rw [hleft.blocks, hadded.blocks, hadded.offset, hranges]
  records := by
    rw [hleft.records, hadded.records, hentries, List.append_assoc, List.singleton_append]
  table := by
    rw [hregistry]
    exact hleft.table

theorem writeHeader_eq (width id childWidth : Nat) :
    writeHeader width id childWidth =
      (Writer.put (fixed width 1)).andThen
        ((Writer.put (vbr 8 id ++ vbr 4 childWidth)).andThen .align) := by
  rw [writeHeader, List.append_assoc, Writer.put_append (fixed width 1), Writer.andThen_assoc]

theorem writeBlock_eq (width id childWidth : Nat) (body : Items) :
    (writeHeader width id childWidth).andThen
        (Writer.sized ((body.write childWidth).andThen (writeEnd childWidth))) =
      (Writer.put (fixed width 1)).andThen (subBlockWriter id childWidth body) := by
  rw [writeHeader_eq, subBlockWriter, Writer.andThen_assoc]

/-- Where a block stops. -/
theorem block_stop (width id childWidth : Nat) (body : Items) (offset : Nat) :
    ((writeHeader width id childWidth).andThen
      (Writer.sized ((body.write childWidth).andThen (writeEnd childWidth)))).stop offset =
        body.blockStop childWidth (blockStart width id childWidth offset) := by
  rw [Writer.stop_andThen, Writer.stop_sized]
  rfl

/-- A block that is the first item, behind its abbreviation id. -/
theorem Ready.subBlock (h : Ready data (.block id width body rest) block bid scope registered s)
    (work : Work)
    (hat : At data (s.offset + block.abbrevWidth)
      (subBlockWriter id width body (s.offset + block.abbrevWidth))) :
    ReadyBlock data id width body block registered (blockStart block.abbrevWidth id width s.offset)
      (body.blockStop width (blockStart block.abbrevWidth id width s.offset))
      (s.goTo (s.offset + block.abbrevWidth) work) := by
  obtain ⟨hid, hlow, hhigh, hdepth, hvalid, -⟩ := h.valid
  have hstop := h.stop
  rw [Items.write, Writer.stop_andThen _ (rest.write block.abbrevWidth), block_stop] at hstop
  refine ⟨hid, hlow, hhigh, hdepth, hat, ?_, rfl, h.sized.1, hvalid, h.sized.2.1, h.plain.1,
    (Writer.le_stop _ _).trans hstop⟩
  rw [blockStart, writeHeader_eq, Writer.stop_andThen (Writer.put (fixed block.abbrevWidth 1)),
    Writer.stop_fixed]

theorem nextBid_of_ne {id : Nat} (h : id ≠ 0) (bid : Option Nat) (code : Nat)
    (operands : List Nat) : nextBid id bid code operands = bid := by
  unfold nextBid
  exact if_neg fun hzero => h hzero.1

theorem exists_turn {n fuel : Nat} (h : n + 1 ≤ fuel) : ∃ more, fuel = more + 1 ∧ n ≤ more :=
  ⟨fuel - 1, by omega, by omega⟩

/-- The items of a block are read back. -/
theorem parses_items (items : Items) : Parses data items := by
  induction items with
  | nil =>
    intro block abbrevs setBid bid scope registered s fuel h hagrees htable hfuel
    exact ⟨abbrevs, setBid, s, rfl, rfl, (List.append_nil _).symm, (List.append_nil _).symm, htable⟩
  | record code operands rest ih =>
    intro block abbrevs setBid bid scope registered s fuel h hagrees htable hfuel
    obtain ⟨more, rfl, hmore⟩ := exists_turn hfuel
    obtain ⟨setBid', t, hturn, hadded, hagrees'⟩ := parseItems_record more h hagrees
    have hready : Ready data rest block (nextBid block.id bid code operands) scope registered t :=
      h.behind rfl hadded.offset h.valid.2.2.2 h.sized h.plain
    obtain ⟨abbrevs', setBid'', u, hparse, hleft⟩ :=
      ih _ _ hready hagrees' (by rw [hadded.table]; exact htable) hmore
    refine ⟨abbrevs', setBid'', u, hturn.trans (hparse.trans ?_),
      Left.of_added hadded hleft (Writer.stop_andThen _ _ _) rfl rfl rfl⟩
    rw [Items.length, Nat.add_sub_add_right]
  | abbreviated index ops fields rest ih =>
    intro block abbrevs setBid bid scope registered s fuel h hagrees htable hfuel
    obtain ⟨more, rfl, hmore⟩ := exists_turn hfuel
    obtain ⟨t, hturn, hadded⟩ := parseItems_abbreviated more h hagrees
    have hsame := nextBid_of_ne h.plain.1 bid (recordCode fields) (recordValues fields).tail
    have hready : Ready data rest block bid scope registered t := by
      have hvalid := h.valid.2.2.2.2
      rw [hsame] at hvalid
      exact h.behind rfl hadded.offset hvalid h.sized h.plain.2
    obtain ⟨abbrevs', setBid', u, hparse, hleft⟩ :=
      ih _ _ hready hagrees (by rw [hadded.table]; exact htable) hmore
    refine ⟨abbrevs', setBid', u, hturn.trans (hparse.trans ?_),
      Left.of_added hadded hleft (Writer.stop_andThen _ _ _) rfl rfl ?_⟩
    · rw [Items.length, Nat.add_sub_add_right]
    · rw [Items.registry, hsame]
  | define ops rest ih =>
    intro block abbrevs setBid bid scope registered s fuel h hagrees htable hfuel
    obtain ⟨more, rfl, hmore⟩ := exists_turn hfuel
    obtain ⟨abbrevs', t, hturn, hdefined, hagrees', htable'⟩ :=
      parseItems_define more h hagrees htable
    have hready := h.behind rfl hdefined.offset h.valid.2.2 h.sized h.plain
    obtain ⟨abbrevs'', setBid', u, hparse, hleft⟩ := ih _ _ hready hagrees' htable' hmore
    refine ⟨abbrevs'', setBid', u, hturn.trans (hparse.trans ?_), ⟨?_, ?_, ?_, hleft.table⟩⟩
    · rw [Items.length, Nat.add_sub_add_right]
    · rw [hleft.offset, hdefined.offset, Items.write, Writer.stop_andThen]
    · rw [hleft.blocks, hdefined.blocks, hdefined.offset, Items.ranges]
    · rw [hleft.records, hdefined.records, Items.entries]
  | block id width body rest hbody ih =>
    intro block abbrevs setBid bid scope registered s fuel h hagrees htable hfuel
    obtain ⟨more, rfl, hmore⟩ := exists_turn hfuel
    obtain ⟨work, hturn, hbehind⟩ := h.turn (small_id (n := 1) (by decide) h.low)
      (by rw [Items.write, writeBlock_eq, Writer.andThen_assoc]) more abbrevs setBid
    obtain ⟨hat, -⟩ := Writer.at_andThen.mp hbehind
    obtain ⟨t, hblock, hleft⟩ := parseSubBlock_write (h.subBlock work hat) hbody htable
      ((Nat.le_add_right _ _).trans hmore)
    -- the items behind it
    obtain ⟨-, -, -, -, -, hrest⟩ := h.valid
    have hwhole := block_stop block.abbrevWidth id width body s.offset
    have hready := h.behind rfl (hleft.offset.trans hwhole.symm) hrest
      (by rw [hwhole]; exact h.sized.2.2) h.plain.2
    obtain ⟨abbrevs', setBid', u, hparse, hleft'⟩ := ih _ _ hready hagrees hleft.table
      ((Nat.le_add_left _ _).trans hmore)
    refine ⟨abbrevs', setBid', u, hturn.trans ((bind_ok hblock).trans (hparse.trans ?_)),
      ⟨?_, ?_, ?_, hleft'.table⟩⟩
    · rw [Items.length, Nat.add_sub_add_right]
    · rw [hleft'.offset, hleft.offset, Items.write,
        Writer.stop_andThen _ (rest.write block.abbrevWidth), hwhole]
    · rw [hleft'.blocks, hleft.blocks, hleft.offset, List.append_assoc]
      rfl
    · rw [hleft'.records, hleft.records, Items.entries, List.map_append, List.append_assoc]

/-! ## Streams -/

/-- A stream of blocks stops at a word. -/
theorem onlyBlocks_stop {items : Items} (h : items.OnlyBlocks) (width : Nat) {offset : Nat}
    (haligned : offset % 32 = 0) : (items.write width).stop offset % 32 = 0 := by
  induction items generalizing offset with
  | nil => exact haligned
  | block id childWidth body rest _ ih =>
    rw [Items.write, Writer.stop_andThen _ (rest.write width)]
    refine ih h ?_
    rw [Writer.stop_andThen, Writer.stop_sized, writeEnd, Writer.stop_andThen, Writer.stop_andThen]
    exact align_stop _
  | record code operands rest _ => exact False.elim h
  | abbreviated index ops fields rest _ => exact False.elim h
  | define ops rest _ => exact False.elim h

/-- The reader's limit is where the writer stops. -/
theorem bitLimit_writeStream {items : Items} (h : items.OnlyBlocks) :
    bitLimit (writeStream items) = (streamWriter items).stop 0 := by
  have hmod : (streamWriter items).stop 0 % 32 = 0 := by
    rw [streamWriter, Writer.stop_andThen, Writer.stop_fixed]
    exact onlyBlocks_stop h 2 rfl
  have hstop : (streamWriter items).stop 0 = (streamWriter items 0).length := Nat.zero_add _
  rw [bitLimit, writeStream, length_pack, ← hstop]
  omega

/-- The parser goes through a written stream to its end. -/
theorem runBitcodeParser_writeStream {items : Items} (h : ValidStream items)
    (hplain : items.PlainInfo rootId) :
    ∃ s, runBitcodeParser (writeStream items) = .ok () s ∧
      s.blocks.map BlockInfo.range =
        ⟨rootId, 0, 32, (streamWriter items).stop 0⟩ :: items.ranges 2 0 32 ∧
      s.records = (items.entries rootId).map Entry.parsed ∧
      Registers s.blockInfoAbbrevs (items.registry rootId none fun _ => []) := by
  have hat := at_pack (streamWriter items 0)
  have hlimit := bitLimit_writeStream h.blocks
  rw [streamWriter, Writer.at_andThen, Writer.stop_fixed, Nat.zero_add] at hat
  obtain ⟨hmagic, hitems⟩ := hat
  rw [streamWriter, Writer.stop_andThen, Writer.stop_fixed, Nat.zero_add] at hlimit ⊢
  -- the fuel does not matter
  have hfuel : runBitcodeParser (writeStream items) =
      parse (writeStream items) (bitLimit (writeStream items) + 1 + items.size) State.start :=
    parse_fuel (Nat.lt_succ_self _) (by omega)
  have hmagicRead : Reads (writeStream items) (readBits (writeStream items) 32) _
      kBitcodeMagicValue :=
    reads_readBits (by decide) (by decide)
  obtain ⟨work, hread⟩ := hmagicRead State.start hmagic
  rw [Writer.stop_fixed] at hread
  -- the loop over the blocks
  have hready : Ready (writeStream items) items
      ⟨rootId, 2, 0, bitLimit (writeStream items), 0⟩ none [] (fun _ => [])
      ⟨32, [⟨rootId, 2, 0, 32, 0, 0⟩], [], [], work⟩ :=
    ⟨le_rfl, (by decide : 2 ≤ 32), h.valid, h.sized, hplain, hitems, hlimit.ge⟩
  have hempty : Registers [] fun _ => [] :=
    ⟨fun _ _ => rfl, fun _ _ hmem => absurd hmem List.not_mem_nil⟩
  obtain ⟨abbrevs', setBid', t, hparse, hleft⟩ := parses_items items [] 0 hready
    ⟨fun _ => rfl, rfl, fun _ hmem => absurd hmem List.not_mem_nil⟩ hempty
    (Nat.le_add_left items.size (bitLimit (writeStream items) + 1))
  obtain ⟨more, hmore⟩ :
      ∃ more, bitLimit (writeStream items) + 1 + items.size - items.length = more + 1 :=
    Nat.exists_eq_succ_of_ne_zero (by have := items.length_le_size; omega)
  have hend : t.offset = bitLimit (writeStream items) := hleft.offset.trans hlimit.symm
  have hlast : parseItems (writeStream items) (more + 1)
      ⟨rootId, 2, 0, bitLimit (writeStream items), 0⟩ abbrevs' setBid' t =
        .ok () { t with blocks := t.blocks.modify 0 fun b =>
          { b with endBit := bitLimit (writeStream items) } } := by
    rw [parseItems]
    change ((if t.offset < bitLimit (writeStream items) then _ else _ : Parser Unit) t) = _
    rw [if_neg (by omega), if_neg (not_not.mpr hend)]
    rfl
  refine ⟨{ t with blocks := t.blocks.modify 0 fun b =>
    { b with endBit := bitLimit (writeStream items) } }, ?_, ?_, hleft.records, hleft.table⟩
  · rw [hfuel, parse, bind_ok hread, if_neg (not_not.mpr rfl),
      bind_ok (enterBlock_eq le_rfl (by decide) (Nat.zero_le _) _)]
    refine hparse.trans ?_
    rw [hmore]
    exact hlast
  · have hroot : t.blocks.map BlockInfo.range = [] ++ ⟨rootId, 0, 32, 0⟩ :: items.ranges 2 0 32 :=
      hleft.blocks
    rw [← hlimit]
    exact map_range_setEndBit _ hroot rfl

/-! ## What is exact -/

/-- The parser keeps the code and the count of a record: Char6 is not decoded for a code, and the
operands are counted in 32 bits, with the code among them where there is an abbreviation. -/
structure Entry.Fits (entry : Entry) : Prop where
  code : entry.codeScalar ≠ some .char6
  count : (if entry.abbreviated then entry.count + 1 else entry.count) < 2 ^ 32

/-- An entry that can have been written. -/
structure Entry.Written (entry : Entry) : Prop where
  code : entry.code < 2 ^ 32
  holds : ∀ s ∈ entry.codeScalar, s.Holds entry.code

/-- The reader keeps the code of a character and not the character. -/
theorem decodeChar6_ne {i : Nat} (h : i < 64) :
    u32 (encodeChar6 (decodeChar6 i)) ≠ decodeChar6 i := by
  revert i
  decide

theorem u32_eq_iff (n : Nat) : u32 n = n ↔ n < 2 ^ 32 :=
  Nat.mod_eq_iff_lt (by decide)

/-- A count is kept exactly where it fits 32 bits. -/
theorem count_eq_iff (n : Nat) : u32 (n + 1) - 1 = n ↔ n + 1 < 2 ^ 32 := by
  have hlt : u32 (n + 1) < 2 ^ 32 := Nat.mod_lt _ (by decide)
  constructor
  · intro h
    omega
  · intro h
    rw [u32_of_lt h, Nat.add_sub_cancel]

/-- The reader keeps what was written exactly where the record fits. -/
theorem Entry.parsed_eq_info {entry : Entry} (h : entry.Written) :
    entry.parsed = entry.info ↔ entry.Fits := by
  obtain ⟨blockId, code, codeScalar, count, abbreviated⟩ := entry
  have hcount : (if abbreviated then u32 (count + 1) - 1 else u32 count) = count ↔
      (if abbreviated then count + 1 else count) < 2 ^ 32 := by
    cases abbreviated with
    | true => exact count_eq_iff count
    | false => exact u32_eq_iff count
  have hcode : u32 (Entry.mk blockId code codeScalar count abbreviated).raw = code ↔
      codeScalar ≠ some .char6 := by
    have hsame : u32 code = code := u32_of_lt h.code
    cases codeScalar with
    | none => exact iff_of_true hsame (by simp)
    | some s =>
      cases s with
      | fixed width => exact iff_of_true hsame (by simp)
      | vbr width => exact iff_of_true hsame (by simp)
      | char6 =>
        obtain ⟨i, hi, hvalue⟩ := h.holds .char6 rfl
        refine iff_of_false ?_ (not_not.mpr rfl)
        change u32 (encodeChar6 code) ≠ code
        have hcode : code = decodeChar6 i := hvalue.symm
        rw [hcode]
        exact decodeChar6_ne hi
  rw [parsed, info, RecordInfo.mk.injEq]
  constructor
  · rintro ⟨-, hc, hn, -⟩
    exact ⟨hcode.mp hc, hcount.mp hn⟩
  · rintro ⟨hc, hn⟩
    exact ⟨rfl, hcode.mpr hc, hcount.mpr hn, rfl⟩

theorem abbreviatedEntry_written {fields : List Field} (htakes : List.Forall₂ Op.Takes ops fields)
    (hcode : recordCode fields < 2 ^ 32) (blockId : Nat) :
    (abbreviatedEntry blockId ops fields).Written := by
  refine ⟨hcode, fun s hs => ?_⟩
  cases htakes with
  | nil => exact nomatch hs
  | cons htakes _ =>
    cases htakes with
    | @scalar s' v hv =>
      obtain rfl : s' = s := Option.some.inj hs
      exact hv
    | literal => exact nomatch hs
    | array => exact nomatch hs
    | blob => exact nomatch hs

/-- The records of a valid stream are written as their parts say. -/
theorem entries_written {items : Items} {id width depth : Nat} {bid : Option Nat}
    {scope : List (List Op)} {registered : Registry}
    (h : items.Valid id width depth bid scope registered) :
    ∀ entry ∈ items.entries id, entry.Written := by
  induction items generalizing id width depth bid scope registered with
  | nil => exact fun _ hmem => absurd hmem List.not_mem_nil
  | record code operands rest ih =>
    intro entry hmem
    obtain rfl | hmem := List.mem_cons.mp hmem
    · exact ⟨h.1, fun s hs => absurd hs (by simp)⟩
    · exact ih h.2.2.2 entry hmem
  | abbreviated index ops fields rest ih =>
    intro entry hmem
    obtain rfl | hmem := List.mem_cons.mp hmem
    · exact abbreviatedEntry_written h.2.2.1 h.2.2.2.1 id
    · exact ih h.2.2.2.2 entry hmem
  | define ops rest ih => exact ih h.2.2
  | block childId childWidth body rest hbody ih =>
    obtain ⟨-, -, -, -, hvalid, hrest⟩ := h
    intro entry hmem
    obtain hmem | hmem := List.mem_append.mp hmem
    · exact hbody hvalid entry hmem
    · exact ih hrest entry hmem

/-- For the trees where BLOCKINFO blocks have no abbreviated records: the parser gives back the
blocks and the records of the tree exactly where each record fits. It always reaches the end of the
stream, with the abbreviations of every block id but that of BLOCKINFO registered as they were
written, and a number of variable width is read back whole. -/
theorem exact_iff_fits {items : Items} (h : ValidStream items) (hplain : items.PlainInfo rootId) :
    (Exact items ↔ ∀ entry ∈ items.entries rootId, entry.Fits) ∧
      (∃ s, runBitcodeParser (writeStream items) = .ok () s ∧
        ∀ id ≠ 0, findBlockInfoAbbrevs id s.blockInfoAbbrevs =
          (items.registry rootId none (fun _ => []) id).map toAbbrev) ∧
      ∀ {data : List Byte} {width value : Nat}, 2 ≤ width → width ≤ 32 → value < 2 ^ 64 →
        Reads data (readVbr data width) (.put (vbr width value)) value := by
  obtain ⟨s, hrun, hblocks, hrecords, htable⟩ := runBitcodeParser_writeStream h hplain
  refine ⟨⟨?_, ?_⟩, ⟨s, hrun, htable.find⟩, reads_readVbr⟩
  · rintro ⟨t, hrun', -, hrecords'⟩ entry hmem
    have hsame : s = t := by
      rw [hrun] at hrun'
      exact (EStateM.Result.ok.inj hrun').2
    rw [← hsame, hrecords, List.map_inj_left] at hrecords'
    exact (Entry.parsed_eq_info (entries_written h.valid entry hmem)).mp (hrecords' entry hmem)
  · intro hfits
    refine ⟨s, hrun, hblocks, hrecords.trans ?_⟩
    refine List.map_congr_left fun entry hmem => ?_
    exact (Entry.parsed_eq_info (entries_written h.valid entry hmem)).mpr (hfits entry hmem)

/-- An abbreviation that is registered for a block id and used in a block of that id. -/
def registeredArray : Items :=
  .block 0 2 (.record 1 [8] (.define [.literal 5, .array (.fixed 3)] .nil))
    (.block 8 3
      (.abbreviated 0 [.literal 5, .array (.fixed 3)] [.value 5, .items [1, 2, 7]]
        (.record 6 [300] .nil))
      .nil)

theorem registeredArray_valid : ValidStream registeredArray where
  blocks := trivial
  valid := by
    have harray : ValidAbbrev [.literal 5, .array (.fixed 3)] :=
      ⟨by simp [Op.Valid, Scalar.Valid], ⟨_, rfl, trivial⟩, by decide⟩
    have htakes :
        List.Forall₂ Op.Takes [.literal 5, .array (.fixed 3)] [.value 5, .items [1, 2, 7]] :=
      .cons (.literal 5) (.cons (.array (by decide) (by simp [Scalar.Holds])) .nil)
    refine ⟨by decide, by decide, by decide, by decide, ?_, ?_⟩
    · exact ⟨by decide, by decide, by decide, harray, fun _ => rfl, trivial⟩
    · refine ⟨by decide, by decide, by decide, by decide, ?_, trivial⟩
      exact ⟨rfl, by decide, htakes, by decide, by decide, by decide, by decide, trivial⟩
  sized := ⟨by decide +kernel, trivial, by decide +kernel, trivial, trivial⟩

theorem registeredArray_exact : Exact registeredArray := by
  refine (exact_iff_fits registeredArray_valid ⟨trivial, ⟨by decide, trivial⟩, trivial⟩).1.mpr ?_
  have hentries : registeredArray.entries rootId =
      [⟨0, 1, none, 1, false⟩, ⟨8, 5, none, 3, true⟩, ⟨8, 6, none, 1, false⟩] := rfl
  rw [hentries]
  simp only [List.forall_mem_cons]
  exact ⟨⟨by decide, by decide⟩, ⟨by decide, by decide⟩, ⟨by decide, by decide⟩, by simp⟩

/-- A record whose code is written in Char6. -/
def char6Code : Items :=
  .block 8 3 (.define [.scalar .char6] (.abbreviated 0 [.scalar .char6] [.value 98] .nil)) .nil

/-- A record of BLOCKINFO with an abbreviation that is registered for BLOCKINFO. -/
def infoRecord : Items :=
  .block 0 3 (.record 1 [0] (.define [.literal 5] .nil))
    (.block 0 3 (.abbreviated 0 [.literal 5] [.value 5] .nil) .nil)

/-- The blocks of both streams are short. -/
theorem char6Code_infoRecord_sized : char6Code.Sized 2 32 ∧ infoRecord.Sized 2 32 :=
  ⟨⟨by decide +kernel, trivial, trivial⟩,
    by decide +kernel, trivial, by decide +kernel, trivial, trivial⟩

theorem char6Code_valid : ValidStream char6Code where
  blocks := trivial
  valid := by
    have hchar6 : ValidAbbrev [.scalar .char6] :=
      ⟨by simp [Op.Valid, Scalar.Valid], ⟨_, rfl, trivial⟩, by decide⟩
    have htakes : List.Forall₂ Op.Takes [.scalar .char6] [.value 98] :=
      .cons (.scalar ⟨1, by decide, rfl⟩) .nil
    refine ⟨by decide, by decide, by decide, by decide, ?_, trivial⟩
    exact ⟨hchar6, by decide, rfl, by decide, htakes, by decide, trivial⟩
  sized := char6Code_infoRecord_sized.1

theorem infoRecord_valid : ValidStream infoRecord where
  blocks := trivial
  valid := by
    have hliteral : ValidAbbrev [.literal 5] := ⟨by simp [Op.Valid], ⟨_, rfl, trivial⟩, by decide⟩
    have htakes : List.Forall₂ Op.Takes [.literal 5] [.value 5] := .cons (.literal 5) .nil
    refine ⟨by decide, by decide, by decide, by decide, ?_, ?_⟩
    · exact ⟨by decide, by decide, by decide, hliteral, fun _ => rfl, trivial⟩
    · refine ⟨by decide, by decide, by decide, by decide, ?_, trivial⟩
      exact ⟨rfl, by decide, htakes, by decide, trivial⟩
  sized := char6Code_infoRecord_sized.2

/-- The records of an exact stream are what was written. -/
theorem Exact.records {items : Items} (h : Exact items) :
    (stateOf (runBitcodeParser (writeStream items))).records =
      (items.entries rootId).map Entry.info := by
  obtain ⟨s, hrun, -, hrecords⟩ := h
  rw [hrun]
  exact hrecords

/-- The parser takes the six bits of the character for the code of the one, and does not find the
abbreviation of the other. -/
theorem char6Code_infoRecord_not_exact :
    (ValidStream char6Code ∧ ¬ Exact char6Code) ∧
      ValidStream infoRecord ∧ ¬ Exact infoRecord := by
  refine ⟨⟨char6Code_valid, fun hexact => ?_⟩, infoRecord_valid, fun hexact => ?_⟩
  · have hparsed : (stateOf (runBitcodeParser (writeStream char6Code))).records =
        [⟨8, 1, 0, true⟩] := by decide +kernel
    have hrecords := hexact.records
    rw [hparsed] at hrecords
    exact absurd hrecords (by decide)
  · have hparsed : (stateOf (runBitcodeParser (writeStream infoRecord))).records =
        [⟨0, 1, 1, false⟩] := by decide +kernel
    have hrecords := hexact.records
    rw [hparsed] at hrecords
    exact absurd hrecords (by decide)

end Bitcode

end Dxmt
