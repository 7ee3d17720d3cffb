import Dxmt.BitcodeWriter

/-!
# Reading what was written

`Reads m w a`: where the bits of a writer stand, a parser function goes behind them and has a value.
The rules follow the writers; the log of work is left out.
-/

namespace Dxmt

namespace Bitcode

open Bitstream

/-- The state at another place, whatever the log says. -/
abbrev State.goTo (s : State) (offset : Nat) (work : Work) : State := { s with offset, work }

variable (data : List Byte) in
/-- The parser function reads the bits of the writer, and has a value from them. -/
def Reads {α : Type} (m : Parser α) (w : Writer) (a : α) : Prop :=
  ∀ s, At data s.offset (w s.offset) →
    ∃ work, m s = .ok a (s.goTo (w.stop s.offset) work)

variable {data : List Byte} {α β : Type} {m : Parser α} {f : α → Parser β} {w w' : Writer} {a : α}
  {b : β}

/-- One read after the other is one writer after the other. -/
theorem Reads.bind (h : Reads data m w a) (hf : Reads data (f a) w' b) :
    Reads data (m >>= f) (w.andThen w') b := by
  intro s hat
  obtain ⟨hfirst, hsecond⟩ := at_append.mp hat
  obtain ⟨work, hm⟩ := h s hfirst
  obtain ⟨work', hfa⟩ := hf (s.goTo (w.stop s.offset) work) hsecond
  refine ⟨work', ?_⟩
  rw [bind_ok hm, hfa, Writer.stop_andThen]

/-- A function that reads nothing. -/
theorem Reads.quiet (h : Reads data m (.put []) a) (hf : Reads data (f a) w b) :
    Reads data (m >>= f) w b := by
  have hbind := h.bind hf
  rwa [Writer.put_nil_andThen] at hbind

/-- A read that is followed by nothing that reads. -/
theorem Reads.last (h : Reads data m w a) (hf : Reads data (f a) (.put []) b) :
    Reads data (m >>= f) w b := by
  have hbind := h.bind hf
  rwa [Writer.andThen_put_nil] at hbind

theorem reads_pure (a : α) : Reads data (pure a) (.put []) a :=
  fun s _ => ⟨s.work, rfl⟩

theorem reads_turn : Reads data turn (.put []) () :=
  fun _ _ => ⟨_, rfl⟩

theorem reads_logDeclared (count : Nat) : Reads data (logDeclared data count) (.put []) () :=
  fun _ _ => ⟨_, rfl⟩

theorem reads_logFinished : Reads data logFinished (.put []) () :=
  fun _ _ => ⟨_, rfl⟩

theorem reads_logLiterals (count : Nat) : Reads data (logLiterals count) (.put []) () :=
  fun _ _ => ⟨_, rfl⟩

/-! ## Bits -/

/-- What stays inside the limit is added. -/
theorem checkedAdd64_of_le {offset size limit : Nat} (h : offset + size ≤ limit) :
    checkedAdd64 offset size limit = some (offset + size) := by
  rw [checkedAdd64, if_neg (by omega)]

/-- A fixed field is read back. -/
theorem reads_readBits {width value : Nat} (hwidth : width ≤ 64) (hvalue : value < 2 ^ width) :
    Reads data (readBits data width) (.put (fixed width value)) value := by
  intro s hat
  have hinside : s.offset + (fixed width value).length ≤ bitLimit data := hat.inside
  rw [length_fixed] at hinside
  refine ⟨s.work, ?_⟩
  rw [readBits, if_neg (not_lt.mpr hwidth), checkedAdd64_of_le hinside, readWord_fixed hvalue hat,
    Writer.stop_put, length_fixed]

theorem u64_of_lt {n : Nat} (h : n < 2 ^ 64) : u64 n = n := Nat.mod_eq_of_lt h

theorem u32_of_lt {n : Nat} (h : n < 2 ^ 32) : u32 n = n := Nat.mod_eq_of_lt h

/-- A piece that keeps its bits on the way to its place. -/
theorem payload_shift {payload shift : Nat} (h : payload * 2 ^ shift < 2 ^ 64) :
    u64 (payload <<< shift) = payload <<< shift ∧ payload <<< shift >>> shift = payload := by
  rw [Nat.shiftLeft_eq, u64_of_lt h]
  refine ⟨rfl, ?_⟩
  rw [Nat.shiftRight_eq_div_pow, Nat.mul_div_cancel _ (Nat.two_pow_pos shift)]

/-- The pieces of a variable field, from any of them on. -/
theorem reads_readVbrPieces {width : Nat} (hwidth : 2 ≤ width) (hwidth' : width ≤ 32) (fuel : Nat)
    {shift value : Nat} (hfuel : 64 < fuel + shift) (hshift : shift < 64)
    (hvalue : value * 2 ^ shift < 2 ^ 64) (before : Nat) :
    Reads data (readVbrPieces data width fuel shift before) (.put (vbr width value))
      (before ||| value <<< shift) := by
  induction fuel generalizing shift value before with
  | zero => omega
  | succ fuel ih =>
    have hpow : 2 ^ width = 2 ^ (width - 1) * 2 := by
      rw [← Nat.pow_succ]
      congr 1
      omega
    have hpos : 0 < 2 ^ (width - 1) := Nat.two_pow_pos _
    rw [readVbrPieces]
    by_cases hlast : value < 2 ^ (width - 1)
    · rw [vbr_last hlast]
      refine Reads.last (reads_readBits (by omega) (by omega)) ?_
      obtain ⟨hsame, hback⟩ := payload_shift hvalue
      have hzero : value / 2 ^ (width - 1) % 2 = 0 := by rw [Nat.div_eq_of_lt hlast]
      simp only [Nat.mod_eq_of_lt hlast, hsame, hback, ne_eq, not_true_eq_false, or_false,
        not_le.mpr hshift, if_false, hzero, if_true]
      exact reads_pure _
    · have hge := not_lt.mp hlast
      have hlow : value % 2 ^ (width - 1) < 2 ^ (width - 1) := Nat.mod_lt _ hpos
      have hpiece : (value % 2 ^ (width - 1) + 2 ^ (width - 1)) % 2 ^ (width - 1) =
          value % 2 ^ (width - 1) := by
        rw [Nat.add_mod_right, Nat.mod_mod]
      have hmore : (value % 2 ^ (width - 1) + 2 ^ (width - 1)) / 2 ^ (width - 1) % 2 = 1 := by
        rw [Nat.add_div_right _ hpos, Nat.div_eq_of_lt hlow]
      have hpayload : value % 2 ^ (width - 1) * 2 ^ shift < 2 ^ 64 :=
        (Nat.mul_le_mul_right _ (Nat.mod_le _ _)).trans_lt hvalue
      obtain ⟨hsame, hback⟩ := payload_shift hpayload
      have hhigh : value / 2 ^ (width - 1) * 2 ^ (shift + (width - 1)) < 2 ^ 64 := by
        rw [Nat.add_comm, Nat.pow_add, ← Nat.mul_assoc]
        exact (Nat.mul_le_mul_right _ (Nat.div_mul_le_self _ _)).trans_lt hvalue
      have hone : 1 ≤ value / 2 ^ (width - 1) := (Nat.one_le_div_iff hpos).mpr hge
      have hshift' : shift + (width - 1) < 64 := by
        refine (Nat.pow_lt_pow_iff_right (by decide : 1 < 2)).mp ?_
        exact (Nat.le_mul_of_pos_left _ hone).trans_lt hhigh
      rw [vbr_more hwidth hge, Writer.put_append]
      refine Reads.bind (reads_readBits (by omega) (by omega)) ?_
      simp only [hpiece, hsame, hback, ne_eq, not_true_eq_false, or_false, not_le.mpr hshift,
        if_false, hmore, one_ne_zero]
      have hrest := ih (by omega) hshift' hhigh (before ||| (value % 2 ^ (width - 1)) <<< shift)
      rwa [Nat.lor_assoc, low_or_high] at hrest

/-- A variable field is read back. -/
theorem reads_readVbr {width value : Nat} (hwidth : 2 ≤ width) (hwidth' : width ≤ 32)
    (hvalue : value < 2 ^ 64) :
    Reads data (readVbr data width) (.put (vbr width value)) value := by
  rw [readVbr, if_neg (by omega)]
  have hpieces : Reads data (readVbrPieces data width 65 0 0) _ (0 ||| value <<< 0) :=
    reads_readVbrPieces hwidth hwidth' 65 (by decide) (by decide) (by simpa using hvalue) 0
  rwa [Nat.zero_or, Nat.shiftLeft_zero] at hpieces

/-- The padding is skipped. -/
theorem reads_align32 : Reads data (align32 data) .align () := by
  intro s hat
  have hinside := hat.inside
  have hstop : (s.offset + 31) / 32 * 32 = Writer.align.stop s.offset := by
    rw [Writer.stop, Writer.align, padding, List.length_replicate]
    omega
  have hlimit : ¬ bitLimit data < (s.offset + 31) / 32 * 32 := by
    rw [hstop]
    exact not_lt.mpr hinside
  refine ⟨s.work, ?_⟩
  unfold align32
  simp only [if_neg hlimit]
  rw [hstop]

/-- Bits are skipped. -/
theorem reads_skipBits (bits : List Bool) :
    Reads data (skipBits data bits.length) (.put bits) () := by
  intro s hat
  have hinside : s.offset + bits.length ≤ bitLimit data := hat.inside
  refine ⟨s.work, ?_⟩
  unfold skipBits
  rw [checkedAdd64_of_le hinside, Writer.stop_put]

/-! ## Abbreviations -/

/-- An operand as DEFINE_ABBREV can have it. -/
structure AbbrevOperand.Written (operand : AbbrevOperand) : Prop where
  value : operand.value < 2 ^ 64
  literal : operand.literal = true → operand.encoding = 0
  encoding : operand.literal = false → 1 ≤ operand.encoding ∧ operand.encoding ≤ 5
  plain : operand.literal = false → operand.encoding ≠ 1 → operand.encoding ≠ 2 → operand.value = 0

/-- The operands of a definition are read back. -/
theorem reads_readAbbrevOperands (operands : Abbrev) (h : ∀ operand ∈ operands, operand.Written)
    (before : Abbrev) :
    Reads data (readAbbrevOperands data operands.length before)
      (.put (operands.flatMap AbbrevOperand.bits)) (before ++ operands) := by
  induction operands generalizing before with
  | nil =>
    rw [List.append_nil]
    exact reads_pure _
  | cons operand operands ih =>
    obtain ⟨isLiteral, value, encoding⟩ := operand
    have hwritten := h _ List.mem_cons_self
    have hrest := ih (fun operand hmem => h operand (List.mem_cons_of_mem _ hmem))
      (before ++ [⟨isLiteral, value, encoding⟩])
    rw [List.append_assoc, List.singleton_append] at hrest
    rw [List.length_cons, readAbbrevOperands, List.flatMap_cons, AbbrevOperand.bits]
    refine Reads.quiet reads_turn ?_
    cases isLiteral with
    | true =>
      obtain rfl : encoding = 0 := hwritten.literal rfl
      simp only [if_true, Writer.put_append, Writer.andThen_assoc]
      refine Reads.bind (reads_readBits (by decide) (by decide)) ?_
      simp only [ne_eq, one_ne_zero, not_false_eq_true, if_true]
      exact Reads.bind (reads_readVbr (by decide) (by decide) hwritten.value) hrest
    | false =>
      obtain ⟨hlow, hhigh⟩ := hwritten.encoding rfl
      simp only at hlow hhigh
      simp only [Bool.false_eq_true, if_false, Writer.put_append, Writer.andThen_assoc]
      refine Reads.bind (reads_readBits (by decide) (by decide)) ?_
      simp only [ne_eq, not_true_eq_false, if_false]
      refine Reads.bind (reads_readBits (by decide) (by omega)) ?_
      rw [if_neg (by omega)]
      by_cases hdata : encoding = 1 ∨ encoding = 2
      · rw [if_pos hdata, if_pos hdata]
        exact Reads.bind (reads_readVbr (by decide) (by decide) hwritten.value) hrest
      · obtain rfl : value = 0 := hwritten.plain rfl (fun h => hdata (.inl h)) fun h =>
          hdata (.inr h)
        rw [if_neg hdata, if_neg hdata, Writer.put_nil_andThen]
        exact hrest

/-- A valid scalar is described by an operand that the reader takes. -/
theorem Scalar.written {s : Scalar} (h : s.Valid) : s.operand.Written := by
  cases s with
  | fixed width =>
    have hvalue : width < 2 ^ 64 := h.2.trans_lt (by decide)
    exact ⟨hvalue, by simp [operand], by simp [operand], by simp [operand]⟩
  | vbr width =>
    have hvalue : width < 2 ^ 64 := h.2.trans_lt (by decide)
    exact ⟨hvalue, by simp [operand], by simp [operand], by simp [operand]⟩
  | char6 => exact ⟨by decide, by simp [operand], by simp [operand], by simp [operand]⟩

theorem Op.written {op : Op} (h : op.Valid) : ∀ operand ∈ op.operands, operand.Written := by
  intro operand hmem
  cases op with
  | literal value =>
    obtain rfl := List.mem_singleton.mp hmem
    exact ⟨h, by simp, by simp, by simp⟩
  | scalar s =>
    obtain rfl := List.mem_singleton.mp hmem
    exact Scalar.written h
  | array s =>
    obtain rfl | hmem := List.mem_cons.mp hmem
    · exact ⟨by decide, by simp, by simp, by simp⟩
    · obtain rfl := List.mem_singleton.mp hmem
      exact Scalar.written h
  | blob =>
    obtain rfl := List.mem_singleton.mp hmem
    exact ⟨by decide, by simp, by simp, by simp⟩

/-- A definition is read back. -/
theorem reads_readAbbrev {ops : List Op} (h : ValidAbbrev ops) :
    Reads data (readAbbrev data)
      (.put (vbr 5 (toAbbrev ops).length ++ (toAbbrev ops).flatMap AbbrevOperand.bits))
      (toAbbrev ops) := by
  have hwritten : ∀ operand ∈ toAbbrev ops, operand.Written := by
    intro operand hmem
    obtain ⟨op, hop, hmem⟩ := List.mem_flatMap.mp hmem
    exact Op.written (h.each op hop) operand hmem
  rw [readAbbrev, Writer.put_append]
  refine Reads.bind (reads_readVbr (by decide) (by decide) h.length) ?_
  refine Reads.quiet (reads_logDeclared _) ?_
  refine Reads.last (reads_readAbbrevOperands _ hwritten []) ?_
  exact Reads.quiet reads_logFinished (reads_pure _)

/-! ## Values -/

/-- The code of a character has six bits. -/
theorem encodeChar6_lt {c : Nat} (h : Scalar.char6.Holds c) : encodeChar6 c < 64 := by
  obtain ⟨i, hi, rfl⟩ := h
  revert i
  decide

/-- A scalar is read back. -/
theorem reads_readEncodedValue {s : Scalar} (hs : s.Valid) {value : Nat} (h : s.Holds value) :
    Reads data (readEncodedValue data s.operand) (.put (s.bits value)) (s.raw value) := by
  cases s with
  | fixed width =>
    have hwidth : u32 width = width := u32_of_lt (by have := hs.2; omega)
    change Reads data (readBits data (u32 width)) _ _
    rw [hwidth]
    exact reads_readBits hs.2 h
  | vbr width =>
    have hwidth : u32 width = width := u32_of_lt (by have := hs.2; omega)
    change Reads data (readVbr data (u32 width)) _ _
    rw [hwidth]
    exact reads_readVbr hs.1 hs.2 h
  | char6 => exact reads_readBits (by decide) (encodeChar6_lt h)

/-- The items of an array are read back. -/
theorem reads_readItems {s : Scalar} (hs : s.Valid) (items : List Nat)
    (h : ∀ value ∈ items, s.Holds value) (values : Values) :
    Reads data (readItems data s.operand items.length values) (.put (items.flatMap s.bits))
      ((items.map s.raw).foldl Values.push values) := by
  induction items generalizing values with
  | nil => exact reads_pure _
  | cons value items ih =>
    rw [List.length_cons, readItems, List.flatMap_cons, Writer.put_append, List.map_cons,
      List.foldl_cons]
    refine Reads.quiet reads_turn ?_
    refine Reads.bind (reads_readEncodedValue hs (h value List.mem_cons_self)) ?_
    exact ih (fun value hmem => h value (List.mem_cons_of_mem _ hmem)) _

/-- The values after a field. -/
def Op.after : Op → Field → Values → Values
  | literal expected, _, values => values.push expected
  | scalar s, .value v, values => values.push (s.raw v)
  | array s, .items vs, values => (vs.map s.raw).foldl Values.push values
  | blob, _, values => { values with operandCount := u32 (values.operandCount + 1) }
  | _, _, values => values

/-- The values after the fields of a record. -/
def afterFields : List Op → List Field → Values → Values
  | op :: ops, field :: fields, values => afterFields ops fields (op.after field values)
  | _, _, values => values

theorem length_bytes_bits (bytes : List Byte) :
    (bytes.flatMap fun byte => fixed 8 byte.toNat).length = bytes.length * 8 := by
  induction bytes with
  | nil => rfl
  | cons byte bytes ih =>
    rw [List.flatMap_cons, List.length_append, ih, length_fixed, List.length_cons]
    omega

/-- A blob is skipped, and its bytes counted. -/
theorem reads_readBlob (bytes : List Byte) (h : bytes.length < 2 ^ 61) (values : Values) :
    Reads data (readBlob data values) (Op.blob.write (.bytes bytes))
      (Op.blob.after (.bytes bytes) values) := by
  rw [readBlob]
  refine Reads.bind (reads_readVbr (by decide) (by decide) (by omega)) ?_
  rw [if_neg (by omega)]
  refine Reads.bind reads_align32 ?_
  have hskip : Reads data (skipBits data _) _ () :=
    reads_skipBits (bytes.flatMap fun byte => fixed 8 byte.toNat)
  rw [length_bytes_bits] at hskip
  refine Reads.bind hskip ?_
  exact Reads.last reads_align32 (reads_pure _)

theorem reads_logItems (element : AbbrevOperand) (length : Nat) :
    Reads data (logItems data element length) (.put []) () := by
  rw [logItems]
  split
  · exact fun _ _ => ⟨_, rfl⟩
  · exact reads_pure _

theorem readAbbreviatedValues_literal (expected : Nat) (rest : Abbrev) (values : Values) :
    readAbbreviatedValues data (⟨true, expected, 0⟩ :: rest) values =
      (turn >>= fun _ => readAbbreviatedValues data rest (values.push expected)) := by
  rw [readAbbreviatedValues.eq_def]
  rfl

theorem readAbbreviatedValues_scalar (s : Scalar) (rest : Abbrev) (values : Values) :
    readAbbreviatedValues data (s.operand :: rest) values =
      (turn >>= fun _ => readEncodedValue data s.operand >>= fun value =>
        readAbbreviatedValues data rest (values.push value)) := by
  rw [readAbbreviatedValues.eq_def]
  cases s with
  | fixed => rfl
  | vbr => rfl
  | char6 => rfl

theorem readAbbreviatedValues_array (element : AbbrevOperand) (rest : Abbrev) (values : Values) :
    readAbbreviatedValues data (⟨false, 0, 3⟩ :: element :: rest) values =
      (turn >>= fun _ => readVbr data 6 >>= fun length => logItems data element length >>= fun _ =>
        readItems data element length values >>= readAbbreviatedValues data rest) := by
  rw [readAbbreviatedValues.eq_def]
  rfl

theorem readAbbreviatedValues_blob (rest : Abbrev) (values : Values) :
    readAbbreviatedValues data (⟨false, 0, 5⟩ :: rest) values =
      (turn >>= fun _ => readBlob data values >>= readAbbreviatedValues data rest) := by
  rw [readAbbreviatedValues.eq_def]
  rfl

/-- The fields of a record are read back, each by its part. -/
theorem reads_readAbbreviatedValues {ops : List Op} {fields : List Field}
    (hops : ∀ op ∈ ops, op.Valid) (h : List.Forall₂ Op.Takes ops fields) (values : Values) :
    Reads data (readAbbreviatedValues data (toAbbrev ops) values) (writeFields ops fields)
      (afterFields ops fields values) := by
  induction h generalizing values with
  | nil => exact reads_pure _
  | @cons op field ops fields htakes _ ih =>
    have hop := hops op List.mem_cons_self
    have hrest := fun values => ih (fun op hmem => hops op (List.mem_cons_of_mem _ hmem)) values
    rw [toAbbrev, List.flatMap_cons]
    cases htakes with
    | literal expected =>
      change Reads data
        (readAbbreviatedValues data (⟨true, expected, 0⟩ :: toAbbrev ops) values) _ _
      rw [readAbbreviatedValues_literal]
      exact Reads.quiet reads_turn (hrest _)
    | @scalar s v hv =>
      change Reads data (readAbbreviatedValues data (s.operand :: toAbbrev ops) values) _ _
      rw [readAbbreviatedValues_scalar]
      exact Reads.quiet reads_turn (Reads.bind (reads_readEncodedValue hop hv) (hrest _))
    | @array s vs hlength hvs =>
      change Reads data
        (readAbbreviatedValues data (⟨false, 0, 3⟩ :: s.operand :: toAbbrev ops) values) _ _
      rw [readAbbreviatedValues_array]
      refine Reads.quiet reads_turn ?_
      rw [writeFields, Op.write, Writer.put_append, Writer.andThen_assoc]
      refine Reads.bind (reads_readVbr (by decide) (by decide) hlength) ?_
      refine Reads.quiet (reads_logItems _ _) ?_
      exact Reads.bind (reads_readItems hop vs hvs values) (hrest _)
    | @blob bytes hlength =>
      change Reads data (readAbbreviatedValues data (⟨false, 0, 5⟩ :: toAbbrev ops) values) _ _
      rw [readAbbreviatedValues_blob]
      exact Reads.quiet reads_turn (Reads.bind (reads_readBlob bytes hlength values) (hrest _))

/-! ## Records -/

/-- The number that stands in the stream for the code of a record. -/
def Entry.raw (entry : Entry) : Nat :=
  match entry.codeScalar with
  | some s => s.raw entry.code
  | none => entry.code

/-- What the parser makes of a record. -/
def Entry.parsed (entry : Entry) : RecordInfo where
  blockId := entry.blockId
  code := u32 entry.raw
  operandCount := if entry.abbreviated then u32 (entry.count + 1) - 1 else u32 entry.count
  abbreviated := entry.abbreviated

theorem u32_add (n k : Nat) : u32 (u32 n + k) = u32 (n + k) := Nat.mod_add_mod _ _ _

theorem pushes_operandCount (vs : List Nat) {values : Values} {n : Nat}
    (h : values.operandCount = u32 n) :
    (vs.foldl Values.push values).operandCount = u32 (n + vs.length) := by
  induction vs generalizing values n with
  | nil => exact h
  | cons v vs ih =>
    have hpush : (values.push v).operandCount = u32 (n + 1) := by
      change u32 (values.operandCount + 1) = _
      rw [h, u32_add]
    rw [List.foldl_cons, ih hpush, List.length_cons, Nat.add_assoc, Nat.add_comm 1]

theorem after_operandCount {op : Op} {field : Field} (htakes : op.Takes field) {values : Values}
    {n : Nat} (h : values.operandCount = u32 n) :
    (op.after field values).operandCount = u32 (n + field.count) := by
  have hone : u32 (values.operandCount + 1) = u32 (n + 1) := by rw [h, u32_add]
  cases htakes with
  | literal => exact hone
  | scalar => exact hone
  | @array s vs =>
    have hpushes := pushes_operandCount (vs.map s.raw) h
    rwa [List.length_map] at hpushes
  | blob => exact hone

/-- The count of the values, in 32 bits. -/
theorem afterFields_operandCount {ops : List Op} {fields : List Field}
    (htakes : List.Forall₂ Op.Takes ops fields) {values : Values} {n : Nat}
    (h : values.operandCount = u32 n) :
    (afterFields ops fields values).operandCount = u32 (n + (fields.map Field.count).sum) := by
  induction htakes generalizing values n with
  | nil => exact h
  | @cons op field ops fields htakes _ ih =>
    rw [afterFields, ih (after_operandCount htakes h), List.map_cons, List.sum_cons, Nat.add_assoc]

/-- Values behind the code do not change it. -/
theorem push_code {values : Values} {code : Nat} (h : values.kept.head? = some code) (v : Nat) :
    (values.push v).kept.head? = some code := by
  change (if values.kept.length < 16 then values.kept ++ [v] else values.kept).head? = some code
  split
  · rw [List.head?_append, h, Option.some_or]
  · exact h

theorem pushes_code (vs : List Nat) {values : Values} {code : Nat}
    (h : values.kept.head? = some code) :
    (vs.foldl Values.push values).kept.head? = some code := by
  induction vs generalizing values with
  | nil => exact h
  | cons v vs ih => exact ih (push_code h v)

theorem after_code (op : Op) (field : Field) {values : Values} {code : Nat}
    (h : values.kept.head? = some code) :
    (op.after field values).kept.head? = some code := by
  unfold Op.after
  split
  · exact push_code h _
  · exact push_code h _
  · exact pushes_code _ h
  · exact h
  · exact h

/-- The first value stays the code. -/
theorem afterFields_code (ops : List Op) (fields : List Field) {values : Values} {code : Nat}
    (h : values.kept.head? = some code) :
    (afterFields ops fields values).kept.head? = some code := by
  induction ops generalizing fields values with
  | nil => exact h
  | cons op ops ih =>
    cases fields with
    | nil => exact h
    | cons field fields => exact ih fields (after_code op field h)

/-- The first value of a record is its code, and counts as one value. -/
theorem first_value {ops : List Op} {fields : List Field} (hops : ValidAbbrev ops)
    (htakes : List.Forall₂ Op.Takes ops fields) (blockId : Nat) :
    (afterFields ops fields ⟨[], 0⟩).kept.head? = some (abbreviatedEntry blockId ops fields).raw ∧
      1 ≤ (fields.map Field.count).sum := by
  obtain ⟨op, hop, hvalue⟩ := hops.code
  cases htakes with
  | nil => exact absurd hop (by simp)
  | @cons first field ops fields htakes _ =>
    obtain rfl : first = op := by simpa using hop
    rw [afterFields, List.map_cons, List.sum_cons]
    cases htakes with
    | literal => exact ⟨afterFields_code ops fields rfl, Nat.le_add_right 1 _⟩
    | scalar => exact ⟨afterFields_code ops fields rfl, Nat.le_add_right 1 _⟩
    | array => exact False.elim hvalue
    | blob => exact False.elim hvalue

/-- A record by an abbreviation is read back. -/
theorem reads_readRecord_abbreviated (blockId : Nat) {index : Nat} {abbrevs : List Abbrev}
    {ops : List Op} {fields : List Field} (hindex : abbrevs[index]? = some (toAbbrev ops))
    (hops : ValidAbbrev ops) (htakes : List.Forall₂ Op.Takes ops fields) :
    ∃ kept, Reads data (readRecord data blockId abbrevs (index + 4)) (writeFields ops fields)
      ((abbreviatedEntry blockId ops fields).parsed, kept) := by
  obtain ⟨hcode, hcount⟩ := first_value hops htakes blockId
  have hvalues : (afterFields ops fields ⟨[], 0⟩).operandCount = u32 (0 + _) :=
    afterFields_operandCount htakes rfl
  refine ⟨(afterFields ops fields ⟨[], 0⟩).kept, ?_⟩
  rw [readRecord, if_neg (by omega), Nat.add_sub_cancel, hindex]
  refine Reads.quiet (reads_logLiterals _) ?_
  refine Reads.last (reads_readAbbreviatedValues hops.each htakes ⟨[], 0⟩) ?_
  generalize afterFields ops fields ⟨[], 0⟩ = values at hcode hvalues
  obtain ⟨kept, operandCount⟩ := values
  cases kept with
  | nil => exact absurd hcode (by simp)
  | cons code kept =>
    obtain rfl : code = _ := Option.some.inj hcode
    have hsum : (abbreviatedEntry blockId ops fields).count + 1 = (fields.map Field.count).sum :=
      Nat.sub_add_cancel hcount
    have hoperands : (if 0 < operandCount then operandCount - 1 else 0) =
        u32 ((abbreviatedEntry blockId ops fields).count + 1) - 1 := by
      simp only at hvalues
      rw [hsum, ← Nat.zero_add (List.sum _), ← hvalues]
      split <;> omega
    change Reads data (pure (RecordInfo.mk blockId (u32 (abbreviatedEntry blockId ops fields).raw)
      (if 0 < operandCount then operandCount - 1 else 0) true, _)) _ _
    rw [hoperands]
    exact reads_pure _

/-- The values that an unabbreviated record keeps. -/
theorem reads_readOperands (operands kept : List Nat) (h : ∀ value ∈ operands, value < 2 ^ 64) :
    Reads data (readOperands data operands.length kept) (.put (operands.flatMap (vbr 6)))
      (kept ++ operands.take (16 - kept.length)) := by
  induction operands generalizing kept with
  | nil =>
    rw [List.take_nil, List.append_nil]
    exact reads_pure _
  | cons value operands ih =>
    have hrest := fun kept => ih kept fun value hmem => h value (List.mem_cons_of_mem _ hmem)
    rw [List.length_cons, readOperands, List.flatMap_cons, Writer.put_append]
    refine Reads.quiet reads_turn ?_
    refine Reads.bind (reads_readVbr (by decide) (by decide) (h value List.mem_cons_self)) ?_
    by_cases hroom : kept.length < 16
    · have hkept : 16 - kept.length = 16 - (kept ++ [value]).length + 1 := by
        rw [List.length_append, List.length_singleton]
        omega
      have hmore := hrest (kept ++ [value])
      rw [List.append_assoc, List.singleton_append] at hmore
      rw [if_pos hroom, hkept, List.take_succ_cons]
      exact hmore
    · have hnone : 16 - kept.length = 0 := by omega
      have hstop := hrest kept
      rw [if_neg hroom]
      rwa [hnone, List.take_zero] at hstop ⊢

/-- A record without an abbreviation is read back. -/
theorem reads_readRecord (blockId : Nat) {code : Nat} {operands : List Nat} (abbrevs : List Abbrev)
    (hcode : code < 2 ^ 32) (hlength : operands.length < 2 ^ 64)
    (h : ∀ value ∈ operands, value < 2 ^ 64) :
    Reads data (readRecord data blockId abbrevs 3)
      (.put (vbr 6 code ++ vbr 6 operands.length ++ operands.flatMap (vbr 6)))
      ((Entry.mk blockId code none operands.length false).parsed, code :: operands.take 15) := by
  rw [readRecord, if_pos rfl, List.append_assoc, Writer.put_append, Writer.put_append]
  refine Reads.bind (reads_readVbr (by decide) (by decide) (by omega)) ?_
  refine Reads.bind (reads_readVbr (by decide) (by decide) hlength) ?_
  exact Reads.last (reads_readOperands operands [code] h) (reads_pure _)

end Bitcode

end Dxmt
