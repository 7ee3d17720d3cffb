import Dxmt.ByteWords
import Mathlib.Algebra.Order.Ring.Nat

/-!
# Formats of bytes

A format reads a value off the front of the bytes. With it stand the bytes of a value and the values
that have bytes, and the one law: what is read is a valid value, and its bytes were there.

read bytes = some (value, rest)  ↔  Valid value ∧ bytes = encode value ++ rest

So a question about a reader is one about bytes. Formats are put together from bytes and words, and
each way to put them together keeps the law.
-/

namespace Dxmt

namespace ByteFormat

variable {α β : Type}

/-! ## Numbers -/

/-- The bytes of a number, the least significant first. What does not fit is dropped. -/
def littleEndian : Nat → Nat → List Byte
  | 0, _ => []
  | width + 1, value => BitVec.ofNat 8 value :: littleEndian width (value / 256)

/-- The number that bytes stand for, the lowest first. -/
def ofLittleEndian : List Byte → Nat
  | [] => 0
  | byte :: bytes => byte.toNat + 256 * ofLittleEndian bytes

theorem littleEndian_succ (width value : Nat) :
    littleEndian (width + 1) value = BitVec.ofNat 8 value :: littleEndian width (value / 256) := rfl

theorem ofLittleEndian_cons (byte : Byte) (bytes : List Byte) :
    ofLittleEndian (byte :: bytes) = byte.toNat + 256 * ofLittleEndian bytes := rfl

@[simp]
theorem length_littleEndian (width value : Nat) : (littleEndian width value).length = width := by
  induction width generalizing value with
  | zero => rfl
  | succ width ih => rw [littleEndian_succ, List.length_cons, ih]

/-- A number that fits is read back. -/
theorem ofLittleEndian_littleEndian {width value : Nat} (h : value < 256 ^ width) :
    ofLittleEndian (littleEndian width value) = value := by
  induction width generalizing value with
  | zero =>
    rw [Nat.pow_zero] at h
    exact (Nat.lt_one_iff.mp h).symm
  | succ width ih =>
    have hrest : value / 256 < 256 ^ width := Nat.div_lt_of_lt_mul (by rwa [Nat.pow_succ'] at h)
    rw [littleEndian_succ, ofLittleEndian_cons, ih hrest, BitVec.toNat_ofNat]
    omega

/-- Bytes are written back. -/
theorem littleEndian_ofLittleEndian (bytes : List Byte) :
    littleEndian bytes.length (ofLittleEndian bytes) = bytes := by
  induction bytes with
  | nil => rfl
  | cons byte bytes ih =>
    have hbyte := byte.isLt
    rw [List.length_cons, littleEndian_succ, ofLittleEndian_cons]
    congr 1
    · apply BitVec.eq_of_toNat_eq
      rw [BitVec.toNat_ofNat]
      omega
    · rw [show (byte.toNat + 256 * ofLittleEndian bytes) / 256 = ofLittleEndian bytes by omega, ih]

theorem ofLittleEndian_lt (bytes : List Byte) : ofLittleEndian bytes < 256 ^ bytes.length := by
  induction bytes with
  | nil => exact Nat.one_pos
  | cons byte bytes ih =>
    have hbyte := byte.isLt
    rw [List.length_cons, Nat.pow_succ', ofLittleEndian_cons]
    omega

theorem littleEndian_mod (width value : Nat) :
    littleEndian width (value % 256 ^ width) = littleEndian width value := by
  induction width generalizing value with
  | zero => rfl
  | succ width ih =>
    have hrest : value % 256 ^ (width + 1) / 256 = value / 256 % 256 ^ width := by
      rw [Nat.pow_succ', Nat.mod_mul_right_div_self]
    rw [littleEndian_succ, littleEndian_succ, hrest, ih]
    congr 1
    apply BitVec.eq_of_toNat_eq
    rw [BitVec.toNat_ofNat, BitVec.toNat_ofNat, Nat.pow_succ']
    exact Nat.mod_mul_right_mod _ _ _

/-! ## The law -/

/-- A reader and a writer of one kind of value, and the values that the writer is for. -/
structure Format (α : Type) where
  read : List Byte → Option (α × List Byte)
  encode : α → List Byte
  Valid : α → Prop
  read_iff : ∀ {bytes : List Byte} {value : α} {rest : List Byte},
    read bytes = some (value, rest) ↔ Valid value ∧ bytes = encode value ++ rest

namespace Format

/-- The value whose bytes are all of the bytes. -/
def whole (f : Format α) (bytes : List Byte) : Option α :=
  match f.read bytes with
  | some (value, []) => some value
  | _ => none

/-- What is read to the end is what was written. -/
theorem whole_iff {f : Format α} {bytes : List Byte} {value : α} :
    f.whole bytes = some value ↔ f.Valid value ∧ bytes = f.encode value := by
  have hread := @Format.read_iff _ f bytes value []
  rw [List.append_nil] at hread
  rw [← hread, whole]
  split
  · rename_i value' heq
    rw [heq]
    simp only [Option.some.injEq, Prod.mk.injEq, and_true]
  · rename_i hother
    constructor
    · intro h
      cases h
    · intro h
      exact absurd h (hother value)

end Format

/-! ## Bytes and words -/

/-- The next bytes. -/
def readBytes (count : Nat) (bytes : List Byte) : Option (List Byte × List Byte) :=
  if bytes.length < count then none else some (bytes.take count, bytes.drop count)

/-- Bytes are read exactly where they stand first. -/
theorem readBytes_iff {count : Nat} {bytes value rest : List Byte} :
    readBytes count bytes = some (value, rest) ↔ value.length = count ∧ bytes = value ++ rest := by
  unfold readBytes
  split
  · rename_i hshort
    constructor
    · intro h
      cases h
    · rintro ⟨hlength, rfl⟩
      rw [List.length_append] at hshort
      omega
  · rename_i hlong
    constructor
    · intro h
      cases h
      exact ⟨List.length_take_of_le (Nat.not_lt.mp hlong), (List.take_append_drop _ _).symm⟩
    · rintro ⟨hlength, rfl⟩
      rw [List.take_left' hlength, List.drop_left' hlength]

/-- So many bytes. -/
def bytes (count : Nat) : Format (List Byte) where
  read := readBytes count
  encode value := value
  Valid value := value.length = count
  read_iff := readBytes_iff

/-- The next bytes as a number. -/
def readWord (width : Nat) (bytes : List Byte) : Option (Nat × List Byte) :=
  (readBytes width bytes).map fun read => (ofLittleEndian read.1, read.2)

/-- A number is read exactly where it stands first. -/
theorem readWord_iff {width value : Nat} {bytes rest : List Byte} :
    readWord width bytes = some (value, rest) ↔
      value < 256 ^ width ∧ bytes = littleEndian width value ++ rest := by
  unfold readWord
  rw [Option.map_eq_some_iff]
  constructor
  · rintro ⟨⟨word, rest'⟩, hread, heq⟩
    cases heq
    obtain ⟨hlength, rfl⟩ := readBytes_iff.mp hread
    subst hlength
    exact ⟨ofLittleEndian_lt word, by rw [littleEndian_ofLittleEndian]⟩
  · rintro ⟨hlt, rfl⟩
    refine ⟨(littleEndian width value, rest), readBytes_iff.mpr ⟨length_littleEndian _ _, rfl⟩, ?_⟩
    rw [ofLittleEndian_littleEndian hlt]

/-- A number of so many bytes. -/
def word (width : Nat) : Format Nat where
  read := readWord width
  encode := littleEndian width
  Valid value := value < 256 ^ width
  read_iff := readWord_iff

/-- A length, and as many bytes. -/
def readBlock (width : Nat) (bytes : List Byte) : Option (List Byte × List Byte) :=
  (readWord width bytes).bind fun size => readBytes size.1 size.2

/-- A block is read exactly where it stands first. -/
theorem readBlock_iff {width : Nat} {bytes value rest : List Byte} :
    readBlock width bytes = some (value, rest) ↔
      value.length < 256 ^ width ∧ bytes = (littleEndian width value.length ++ value) ++ rest := by
  unfold readBlock
  rw [Option.bind_eq_some_iff]
  constructor
  · rintro ⟨⟨size, middle⟩, hsize, hvalue⟩
    obtain ⟨hlt, rfl⟩ := readWord_iff.mp hsize
    obtain ⟨rfl, rfl⟩ := readBytes_iff.mp hvalue
    exact ⟨hlt, (List.append_assoc _ _ _).symm⟩
  · rintro ⟨hlt, rfl⟩
    exact ⟨(value.length, value ++ rest), readWord_iff.mpr ⟨hlt, List.append_assoc _ _ _⟩,
      readBytes_iff.mpr ⟨rfl, rfl⟩⟩

/-- Bytes behind their number. -/
def block (width : Nat) : Format (List Byte) where
  read := readBlock width
  encode value := littleEndian width value.length ++ value
  Valid value := value.length < 256 ^ width
  read_iff := readBlock_iff

/-- The bytes up to a zero. -/
def readZeroTerminated : List Byte → Option (List Byte × List Byte)
  | [] => none
  | byte :: bytes =>
    if byte = 0 then some ([], bytes)
    else (readZeroTerminated bytes).map fun read => (byte :: read.1, read.2)

/-- Text is read exactly where it stands first. -/
theorem readZeroTerminated_iff {bytes value rest : List Byte} :
    readZeroTerminated bytes = some (value, rest) ↔ 0 ∉ value ∧ bytes = (value ++ [0]) ++ rest := by
  induction bytes generalizing value with
  | nil =>
    constructor
    · intro h
      cases h
    · rintro ⟨-, h⟩
      rw [List.append_assoc] at h
      cases value <;> cases h
  | cons byte bytes ih =>
    unfold readZeroTerminated
    split
    · rename_i hzero
      subst hzero
      constructor
      · intro h
        cases h
        exact ⟨List.not_mem_nil, rfl⟩
      · rintro ⟨hnot, h⟩
        cases value with
        | nil =>
          cases h
          rfl
        | cons first value =>
          cases h
          exact absurd List.mem_cons_self hnot
    · rename_i hne
      rw [Option.map_eq_some_iff]
      constructor
      · rintro ⟨⟨tail, rest'⟩, hread, heq⟩
        cases heq
        obtain ⟨hnot, rfl⟩ := ih.mp hread
        refine ⟨fun hmem => ?_, rfl⟩
        rcases List.mem_cons.mp hmem with heq | hmem
        · exact hne heq.symm
        · exact hnot hmem
      · rintro ⟨hnot, h⟩
        cases value with
        | nil =>
          cases h
          exact absurd rfl hne
        | cons first value =>
          cases h
          exact ⟨(value, rest), ih.mpr ⟨fun hmem => hnot (List.mem_cons_of_mem _ hmem), rfl⟩, rfl⟩

/-- Bytes up to a zero. -/
def zeroTerminated : Format (List Byte) where
  read := readZeroTerminated
  encode value := value ++ [0]
  Valid value := 0 ∉ value
  read_iff := readZeroTerminated_iff

/-! ## One after the other -/

/-- One value after the other. -/
def readPair (f : Format α) (g : Format β) (bytes : List Byte) : Option ((α × β) × List Byte) :=
  (f.read bytes).bind fun first => (g.read first.2).map fun second =>
  ((first.1, second.1), second.2)

/-- Two values are read exactly where they stand first. -/
theorem readPair_iff {f : Format α} {g : Format β} {bytes rest : List Byte} {value : α × β} :
    readPair f g bytes = some (value, rest) ↔
      (f.Valid value.1 ∧ g.Valid value.2) ∧ bytes =
      (f.encode value.1 ++ g.encode value.2) ++ rest := by
  unfold readPair
  rw [Option.bind_eq_some_iff]
  constructor
  · rintro ⟨⟨first, middle⟩, hfirst, hrest⟩
    obtain ⟨⟨second, last⟩, hsecond, heq⟩ := Option.map_eq_some_iff.mp hrest
    cases heq
    obtain ⟨hvalid, rfl⟩ := f.read_iff.mp hfirst
    obtain ⟨hvalid', rfl⟩ := g.read_iff.mp hsecond
    exact ⟨⟨hvalid, hvalid'⟩, (List.append_assoc _ _ _).symm⟩
  · rintro ⟨⟨hvalid, hvalid'⟩, rfl⟩
    refine ⟨(value.1, g.encode value.2 ++ rest), f.read_iff.mpr ⟨hvalid, List.append_assoc _ _ _⟩,
        ?_⟩
    rw [Option.map_eq_some_iff]
    exact ⟨(value.2, rest), g.read_iff.mpr ⟨hvalid', rfl⟩, rfl⟩

/-- One format after the other. -/
def pair (f : Format α) (g : Format β) : Format (α × β) where
  read := readPair f g
  encode value := f.encode value.1 ++ g.encode value.2
  Valid value := f.Valid value.1 ∧ g.Valid value.2
  read_iff := readPair_iff

/-- As many values as are asked for. -/
def readMany (f : Format α) : Nat → List Byte → Option (List α × List Byte)
  | 0, bytes => some ([], bytes)
  | count + 1, bytes =>
    (f.read bytes).bind fun first =>
      (readMany f count first.2).map fun values => (first.1 :: values.1, values.2)

/-- Values are read exactly where they stand first. -/
theorem readMany_iff {f : Format α} {count : Nat} {bytes rest : List Byte} {values : List α} :
    readMany f count bytes = some (values, rest) ↔
      (values.length = count ∧ ∀ value ∈ values, f.Valid value) ∧
        bytes = values.flatMap f.encode ++ rest := by
  induction count generalizing bytes values with
  | zero =>
    constructor
    · intro h
      cases h
      exact ⟨⟨rfl, fun _ hmem => absurd hmem List.not_mem_nil⟩, rfl⟩
    · rintro ⟨⟨hlength, -⟩, rfl⟩
      cases List.eq_nil_of_length_eq_zero hlength
      rfl
  | succ count ih =>
    unfold readMany
    rw [Option.bind_eq_some_iff]
    constructor
    · rintro ⟨⟨first, middle⟩, hfirst, hrest⟩
      obtain ⟨⟨others, last⟩, hothers, heq⟩ := Option.map_eq_some_iff.mp hrest
      cases heq
      obtain ⟨hvalid, rfl⟩ := f.read_iff.mp hfirst
      obtain ⟨⟨rfl, hvalids⟩, rfl⟩ := ih.mp hothers
      refine ⟨⟨rfl, fun value hmem => ?_⟩, ?_⟩
      · rcases List.mem_cons.mp hmem with rfl | hmem
        · exact hvalid
        · exact hvalids value hmem
      · rw [List.flatMap_cons, List.append_assoc]
    · rintro ⟨⟨hlength, hvalids⟩, rfl⟩
      cases values with
      | nil => cases hlength
      | cons first others =>
        refine ⟨(first, others.flatMap f.encode ++ rest),
            f.read_iff.mpr ⟨hvalids first List.mem_cons_self, ?_⟩, ?_⟩
        · rw [List.flatMap_cons, List.append_assoc]
        · rw [Option.map_eq_some_iff]
          exact ⟨(others, rest), ih.mpr ⟨⟨Nat.succ.inj hlength, fun value hmem =>
            hvalids value (List.mem_cons_of_mem _ hmem)⟩, rfl⟩, rfl⟩

/-- So many values. -/
def many (f : Format α) (count : Nat) : Format (List α) where
  read := readMany f count
  encode values := values.flatMap f.encode
  Valid values := values.length = count ∧ ∀ value ∈ values, f.Valid value
  read_iff := readMany_iff

/-- A count, and as many values. -/
def readCounted (f : Format α) (width : Nat) (bytes : List Byte) : Option (List α × List Byte) :=
  (readWord width bytes).bind fun count => readMany f count.1 count.2

/-- Counted values are read exactly where they stand first. -/
theorem readCounted_iff {f : Format α} {width : Nat} {bytes rest : List Byte} {values : List α} :
    readCounted f width bytes = some (values, rest) ↔
      (values.length < 256 ^ width ∧ ∀ value ∈ values, f.Valid value) ∧
        bytes = (littleEndian width values.length ++ values.flatMap f.encode) ++ rest := by
  unfold readCounted
  rw [Option.bind_eq_some_iff]
  constructor
  · rintro ⟨⟨count, middle⟩, hcount, hvalues⟩
    obtain ⟨hlt, rfl⟩ := readWord_iff.mp hcount
    obtain ⟨⟨rfl, hvalids⟩, rfl⟩ := readMany_iff.mp hvalues
    exact ⟨⟨hlt, hvalids⟩, (List.append_assoc _ _ _).symm⟩
  · rintro ⟨⟨hlt, hvalids⟩, rfl⟩
    exact ⟨(values.length, values.flatMap f.encode ++ rest),
      readWord_iff.mpr ⟨hlt, List.append_assoc _ _ _⟩, readMany_iff.mpr ⟨⟨rfl, hvalids⟩, rfl⟩⟩

/-- The number of the values, and the values. -/
def counted (f : Format α) (width : Nat) : Format (List α) where
  read := readCounted f width
  encode values := littleEndian width values.length ++ values.flatMap f.encode
  Valid values := values.length < 256 ^ width ∧ ∀ value ∈ values, f.Valid value
  read_iff := readCounted_iff

/-- Numbers of the given widths. -/
def readFields : List Nat → List Byte → Option (List Nat × List Byte)
  | [], bytes => some ([], bytes)
  | width :: widths, bytes =>
    (readWord width bytes).bind fun first =>
      (readFields widths first.2).map fun values => (first.1 :: values.1, values.2)

/-- Numbers in the given widths. -/
def encodeFields (widths values : List Nat) : List Byte :=
  (List.zipWith littleEndian widths values).flatten

/-- Fields are read exactly where they stand first. -/
theorem readFields_iff {widths : List Nat} {bytes rest : List Byte} {values : List Nat} :
    readFields widths bytes = some (values, rest) ↔
      List.Forall₂ (fun width value => value < 256 ^ width) widths values ∧
        bytes = encodeFields widths values ++ rest := by
  induction widths generalizing bytes values with
  | nil =>
    constructor
    · intro h
      cases h
      exact ⟨.nil, rfl⟩
    · rintro ⟨hvalues, rfl⟩
      cases hvalues
      rfl
  | cons width widths ih =>
    unfold readFields
    rw [Option.bind_eq_some_iff]
    constructor
    · rintro ⟨⟨first, middle⟩, hfirst, hrest⟩
      obtain ⟨⟨others, last⟩, hothers, heq⟩ := Option.map_eq_some_iff.mp hrest
      cases heq
      obtain ⟨hlt, rfl⟩ := readWord_iff.mp hfirst
      obtain ⟨hvalids, rfl⟩ := ih.mp hothers
      exact ⟨.cons hlt hvalids, (List.append_assoc _ _ _).symm⟩
    · rintro ⟨hvalues, rfl⟩
      cases hvalues with
      | cons hlt hvalids =>
        rename_i first others
        refine ⟨(first, encodeFields widths others ++ rest),
          readWord_iff.mpr ⟨hlt, List.append_assoc _ _ _⟩, ?_⟩
        rw [Option.map_eq_some_iff]
        exact ⟨(others, rest), ih.mpr ⟨hvalids, rfl⟩, rfl⟩

/-- Numbers of these widths. -/
def fields (widths : List Nat) : Format (List Nat) where
  read := readFields widths
  encode := encodeFields widths
  Valid := List.Forall₂ (fun width value => value < 256 ^ width) widths
  read_iff := readFields_iff

/-- Numbers that do not fit are read as what is left of them. -/
theorem readFields_encodeFields {widths values : List Nat} (h : widths.length = values.length)
    (rest : List Byte) : readFields widths (encodeFields widths values ++ rest) =
      some (List.zipWith (fun width value => value % 256 ^ width) widths values, rest) := by
  rw [readFields_iff]
  induction widths generalizing values with
  | nil =>
    cases values with
    | nil => exact ⟨.nil, rfl⟩
    | cons value values => cases h
  | cons width widths ih =>
    cases values with
    | nil => cases h
    | cons value values =>
      obtain ⟨hvalids, hbytes⟩ := ih (Nat.succ.inj h)
      refine ⟨.cons (Nat.mod_lt _ (Nat.pow_pos (by decide))) hvalids, ?_⟩
      have hothers := List.append_cancel_right hbytes
      unfold encodeFields at hothers ⊢
      rw [List.zipWith_cons_cons, List.zipWith_cons_cons, List.zipWith_cons_cons, List.flatten_cons,
        List.flatten_cons, littleEndian_mod, hothers]

/-! ## Sizes -/

/-- A size that counts itself, and a value that fills the rest. -/
def readSized (f : Format α) (width own : Nat) (bytes : List Byte) : Option (α × List Byte) :=
  (readWord width bytes).bind fun size =>
    if size.1 < own then none
    else (readBytes (size.1 - own) size.2).bind fun inner =>
      (f.whole inner.1).map fun value => (value, inner.2)

/-- A sized value is read exactly where it stands first and fills its size. -/
theorem readSized_iff {f : Format α} {width own : Nat} {bytes rest : List Byte} {value : α} :
    readSized f width own bytes = some (value, rest) ↔
      (f.Valid value ∧ own + (f.encode value).length < 256 ^ width) ∧
        bytes = (littleEndian width (own + (f.encode value).length) ++ f.encode value) ++ rest := by
  unfold readSized
  rw [Option.bind_eq_some_iff]
  constructor
  · rintro ⟨⟨size, middle⟩, hsize, hrest⟩
    obtain ⟨hlt, rfl⟩ := readWord_iff.mp hsize
    dsimp only at hrest
    split at hrest
    · cases hrest
    · rename_i hown
      obtain ⟨⟨inner, last⟩, hinner, hvalue⟩ := Option.bind_eq_some_iff.mp hrest
      obtain ⟨value', hwhole, heq⟩ := Option.map_eq_some_iff.mp hvalue
      cases heq
      obtain ⟨hlength, rfl⟩ := readBytes_iff.mp hinner
      obtain ⟨hvalid, rfl⟩ := Format.whole_iff.mp hwhole
      have hsize : own + (f.encode value).length = size := by omega
      subst hsize
      exact ⟨⟨hvalid, hlt⟩, (List.append_assoc _ _ _).symm⟩
  · rintro ⟨⟨hvalid, hlt⟩, rfl⟩
    refine ⟨(own + (f.encode value).length, f.encode value ++ rest),
      readWord_iff.mpr ⟨hlt, List.append_assoc _ _ _⟩, ?_⟩
    dsimp only
    rw [if_neg (by omega), Option.bind_eq_some_iff]
    refine ⟨(f.encode value, rest), readBytes_iff.mpr ⟨by omega, rfl⟩, ?_⟩
    rw [Option.map_eq_some_iff]
    exact ⟨value, Format.whole_iff.mpr ⟨hvalid, rfl⟩, rfl⟩

/-- The size of the value, in a word that may count some bytes of its own, and the value. -/
def sized (f : Format α) (width own : Nat) : Format α where
  read := readSized f width own
  encode value := littleEndian width (own + (f.encode value).length) ++ f.encode value
  Valid value := f.Valid value ∧ own + (f.encode value).length < 256 ^ width
  read_iff := readSized_iff

/-! ## Tags -/

/-- Values behind their tags, up to a tag that ends them. -/
def readTagged (last : List Byte) (f : Format α) : Nat → List Byte →
    Option (List (List Byte × α) × List Byte)
  | 0, _ => none
  | fuel + 1, bytes =>
    (readBytes last.length bytes).bind fun tag =>
      if tag.1 = last then some ([], tag.2)
      else (f.read tag.2).bind fun first =>
        (readTagged last f fuel first.2).map fun values => ((tag.1, first.1) :: values.1, values.2)

/-- Values, each after its tag. -/
def encodeTagged (f : Format α) (values : List (List Byte × α)) : List Byte :=
  values.flatMap fun value => value.1 ++ f.encode value.2

/-- The tag of a value is as long as the last tag, and is not this one. -/
def ValidTagged (last : List Byte) (f : Format α) (value : List Byte × α) : Prop :=
  value.1.length = last.length ∧ value.1 ≠ last ∧ f.Valid value.2

theorem readTagged_sound {last : List Byte} {f : Format α} {fuel : Nat} {bytes rest : List Byte}
    {values : List (List Byte × α)} (h : readTagged last f fuel bytes = some (values, rest)) :
    (∀ value ∈ values, ValidTagged last f value) ∧ bytes =
    (encodeTagged f values ++ last) ++ rest := by
  induction fuel generalizing bytes values with
  | zero => cases h
  | succ fuel ih =>
    unfold readTagged at h
    obtain ⟨⟨tag, middle⟩, htag, hrest⟩ := Option.bind_eq_some_iff.mp h
    obtain ⟨hlength, rfl⟩ := readBytes_iff.mp htag
    dsimp only at hrest
    split at hrest
    · rename_i hlast
      cases hrest
      exact ⟨fun _ hmem => absurd hmem List.not_mem_nil, congrArg (· ++ rest) hlast⟩
    · rename_i hne
      obtain ⟨⟨first, after⟩, hfirst, hvalues⟩ := Option.bind_eq_some_iff.mp hrest
      obtain ⟨⟨others, rest'⟩, hothers, heq⟩ := Option.map_eq_some_iff.mp hvalues
      cases heq
      obtain ⟨hvalid, rfl⟩ := f.read_iff.mp hfirst
      obtain ⟨hvalids, rfl⟩ := ih hothers
      refine ⟨fun value hmem => ?_, ?_⟩
      · rcases List.mem_cons.mp hmem with rfl | hmem
        · exact ⟨hlength, hne, hvalid⟩
        · exact hvalids value hmem
      · simp only [encodeTagged, List.flatMap_cons, List.append_assoc]

theorem readTagged_complete {last : List Byte} {f : Format α} {fuel : Nat} {rest : List Byte}
    {values : List (List Byte × α)} (hfuel : values.length < fuel)
    (hvalids : ∀ value ∈ values, ValidTagged last f value) :
    readTagged last f fuel ((encodeTagged f values ++ last) ++ rest) = some (values, rest) := by
  induction values generalizing fuel with
  | nil =>
    obtain ⟨fuel, rfl⟩ := Nat.exists_eq_succ_of_ne_zero (Nat.ne_of_gt hfuel)
    unfold readTagged
    rw [Option.bind_eq_some_iff]
    exact ⟨(last, rest), readBytes_iff.mpr ⟨rfl, rfl⟩, if_pos rfl⟩
  | cons value values ih =>
    obtain ⟨fuel, rfl⟩ := Nat.exists_eq_succ_of_ne_zero (Nat.ne_of_gt (Nat.zero_lt_of_lt hfuel))
    obtain ⟨hlength, hne, hvalid⟩ := hvalids value List.mem_cons_self
    have hothers := ih (Nat.lt_of_succ_lt_succ hfuel) fun other hmem =>
      hvalids other (List.mem_cons_of_mem _ hmem)
    unfold readTagged
    rw [Option.bind_eq_some_iff]
    refine ⟨(value.1, f.encode value.2 ++ ((encodeTagged f values ++ last) ++ rest)),
      readBytes_iff.mpr ⟨hlength, ?_⟩, ?_⟩
    · simp only [encodeTagged, List.flatMap_cons, List.append_assoc]
    · dsimp only
      rw [if_neg hne, Option.bind_eq_some_iff]
      refine ⟨(value.2, (encodeTagged f values ++ last) ++ rest), f.read_iff.mpr ⟨hvalid, rfl⟩, ?_⟩
      rw [Option.map_eq_some_iff]
      exact ⟨(values, rest), hothers, rfl⟩

theorem length_le_encodeTagged {last : List Byte} (hlast : 0 < last.length) {f : Format α}
    {values : List (List Byte × α)} (hvalids : ∀ value ∈ values, ValidTagged last f value) :
    values.length ≤ (encodeTagged f values).length := by
  induction values with
  | nil => exact Nat.zero_le _
  | cons value values ih =>
    have hothers := ih fun other hmem => hvalids other (List.mem_cons_of_mem _ hmem)
    have hlength := (hvalids value List.mem_cons_self).1
    unfold encodeTagged at hothers ⊢
    rw [List.flatMap_cons, List.length_cons, List.length_append, List.length_append]
    omega

/-- Tagged values are read exactly where they stand first, up to the last tag. -/
theorem readTagged_iff {last : List Byte} (hlast : 0 < last.length) {f : Format α}
    {bytes rest : List Byte} {values : List (List Byte × α)} :
    readTagged last f (bytes.length + 1) bytes = some (values, rest) ↔
      (∀ value ∈ values, ValidTagged last f value) ∧
        bytes = (encodeTagged f values ++ last) ++ rest := by
  refine ⟨readTagged_sound, ?_⟩
  rintro ⟨hvalids, rfl⟩
  refine readTagged_complete ?_ hvalids
  have hlength := length_le_encodeTagged hlast hvalids
  rw [List.length_append, List.length_append]
  omega

/-- Values behind their tags, and the tag that ends them. -/
def tagged (last : List Byte) (hlast : 0 < last.length) (f : Format α) :
    Format (List (List Byte × α)) where
  read bytes := readTagged last f (bytes.length + 1) bytes
  encode values := encodeTagged f values ++ last
  Valid values := ∀ value ∈ values, ValidTagged last f value
  read_iff := readTagged_iff hlast

end ByteFormat

end Dxmt
