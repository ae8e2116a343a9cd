import IplReport.Text.Encoding
import Mathlib.Data.FinEnum
import Mathlib.Data.Fintype.Card
import Mathlib.Data.List.GetD

/-!
# Encodings back and forth

The code page has every code at exactly one place, so both encodings are bijections between bytes
and the characters up to U+00FF.  Of these only the space is stored as the blank and only NUL as the
byte zero, so that fill can be told by the bytes as well as by the characters they stand for.

Main statements:
- `toLatin1_ofLatin1` and `ofLatin1_toLatin1`: the code page read in both directions;
- `decodeByte_encodeChar` and `encodeChar_decodeByte`: the same of characters;
- `isFill_encodeChar`: which characters are stored as fill.
-/

namespace IplReport

/-! ## Section 1: The code page -/

/-- A number in which the bits of the given codes are set, and no others. -/
def codeBits : List UInt8 → Nat
  | [] => 0
  | code :: rest => 1 <<< code.toNat ||| codeBits rest

theorem testBit_codeBits {codes : List UInt8} {n : Nat} :
    (codeBits codes).testBit n = true ↔ ∃ code ∈ codes, code.toNat = n := by
  induction codes with
  | nil => simp [codeBits]
  | cons code rest ih => simp [codeBits, Nat.testBit_or, Nat.one_shiftLeft, Nat.testBit_two_pow, ih]

/-- Every code is in the code page.  The bits of all its codes are compared at once, which saves
looking for each of the codes. -/
theorem mem_codePage037 (code : UInt8) : code ∈ codePage037 := by
  have hbits : codeBits codePage037 = 1 <<< 256 - 1 := by decide +kernel
  have hset : (codeBits codePage037).testBit code.toNat = true := by
    rw [hbits, Nat.one_shiftLeft, Nat.testBit_two_pow_sub_one]
    exact decide_eq_true code.toNat_lt
  obtain ⟨code', hmem, heq⟩ := testBit_codeBits.1 hset
  rwa [← UInt8.toNat_inj.1 heq]

theorem length_codePage037 : codePage037.length = UInt8.size := by
  decide +kernel

namespace TextEncoding

@[simp] theorem toLatin1_ofLatin1 (encoding : TextEncoding) (code : UInt8) :
    encoding.toLatin1 (encoding.ofLatin1 code) = code := by
  cases encoding with
  | ascii => rfl
  | ebcdic =>
    have hplace : codePage037.idxOf code < codePage037.length :=
      List.idxOf_lt_length_of_mem (mem_codePage037 code)
    have hbyte : codePage037.idxOf code < UInt8.size := length_codePage037 ▸ hplace
    rw [ofLatin1, toLatin1, UInt8.toNat_ofNat_of_lt' hbyte, List.getD_eq_getElem _ _ hplace,
      List.getElem_idxOf]

/-- There are as many bytes as codes, so no code stands for two bytes. -/
@[simp] theorem ofLatin1_toLatin1 (encoding : TextEncoding) (byte : UInt8) :
    encoding.ofLatin1 (encoding.toLatin1 byte) = byte := by
  have hsurjective : Function.Surjective encoding.toLatin1 :=
    fun code => ⟨encoding.ofLatin1 code, encoding.toLatin1_ofLatin1 code⟩
  have hinjective := Finite.injective_iff_surjective.2 hsurjective
  exact hinjective (encoding.toLatin1_ofLatin1 (encoding.toLatin1 byte))

/-! ## Section 2: Characters -/

/-- The character that is there after a character has been stored: a space for those above U+00FF,
and the character itself for all others. -/
def storedChar (c : Char) : Char :=
  if c.toNat < 256 then c else ' '

theorem storedChar_of_lt {c : Char} (h : c.toNat < 256) : storedChar c = c :=
  if_pos h

theorem decodeByte_blank (encoding : TextEncoding) : encoding.decodeByte encoding.blank = ' ' := by
  cases encoding <;> rfl

theorem decodeByte_zero (encoding : TextEncoding) : encoding.decodeByte 0 = '\x00' := by
  cases encoding <;> rfl

theorem decodeByte_encodeChar (encoding : TextEncoding) (c : Char) :
    encoding.decodeByte (encoding.encodeChar c) = storedChar c := by
  rw [encodeChar, storedChar]
  split_ifs with hlatin1
  · rw [decodeByte, toLatin1_ofLatin1]
    apply Char.ext
    rw [← UInt32.toNat_inj]
    show (UInt8.ofNat c.toNat).toNat = c.toNat
    exact UInt8.toNat_ofNat_of_lt' hlatin1
  · exact encoding.decodeByte_blank

theorem encodeChar_decodeByte (encoding : TextEncoding) (byte : UInt8) :
    encoding.encodeChar (encoding.decodeByte byte) = byte := by
  have hcode : (encoding.decodeByte byte).toNat = (encoding.toLatin1 byte).toNat := rfl
  rw [encodeChar, hcode, if_pos (UInt8.toNat_lt _), UInt8.ofNat_toNat, ofLatin1_toLatin1]

@[simp] theorem length_encode (encoding : TextEncoding) (text : String) :
    (encoding.encode text).length = text.length := by
  rw [encode, List.length_map, String.length_toList]

/-- Two characters are stored as one byte exactly if they are there as one character afterwards. -/
theorem encodeChar_inj {encoding : TextEncoding} {c d : Char} :
    encoding.encodeChar c = encoding.encodeChar d ↔ storedChar c = storedChar d := by
  rw [← encoding.decodeByte_encodeChar c, ← encoding.decodeByte_encodeChar d]
  constructor
  · exact congrArg encoding.decodeByte
  · intro h
    rw [← encoding.encodeChar_decodeByte (encoding.encodeChar c), h, encodeChar_decodeByte]

/-! ## Section 3: Fill -/

theorem isFill_iff {encoding : TextEncoding} {byte : UInt8} :
    encoding.isFill byte = true ↔ byte = 0 ∨ byte = encoding.blank := by
  simp [isFill]

theorem isFill_eq_false_iff {encoding : TextEncoding} {byte : UInt8} :
    encoding.isFill byte = false ↔ byte ≠ 0 ∧ byte ≠ encoding.blank := by
  rw [← Bool.not_eq_true, isFill_iff, not_or]

/-- What is stored as fill is there as a space or as NUL afterwards. -/
theorem isFill_encodeChar {encoding : TextEncoding} {c : Char} :
    encoding.isFill (encoding.encodeChar c) = true ↔
      storedChar c = '\x00' ∨ storedChar c = ' ' := by
  have hzero : encoding.encodeChar '\x00' = 0 := by
    rw [← encoding.decodeByte_zero, encodeChar_decodeByte]
  have hblank : encoding.encodeChar ' ' = encoding.blank := by
    rw [← encoding.decodeByte_blank, encodeChar_decodeByte]
  rw [isFill_iff, ← hzero, ← hblank, encodeChar_inj, encodeChar_inj]
  rfl

end TextEncoding

end IplReport
