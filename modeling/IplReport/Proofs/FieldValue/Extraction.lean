import IplReport.Proofs.Block.Reposition
import IplReport.Proofs.FieldValue
import IplReport.Proofs.Memory.Bytes
import IplReport.Proofs.Text.Encoding

/-!
# What is extracted from the bytes of a block

A field is extracted from the bytes that were read, however many they are, and wherever the field is
said to be.  There is a value exactly if the field is text and all of its bytes are there; the value
then shows these bytes, and nothing else has a part in it.

Main statements:
- `Bytes.slice?_cappedStop`: a stop that is capped cuts out the same bytes as the exact one;
- `LocatedBlock.extract_congr`: which bytes the outcome depends on;
- `LocatedBlock.extract_exact`: the outcome for any field and any bytes.
-/

namespace IplReport

variable {here there : LocatedBlock} {f : Field} {v : FieldValue}

/-! ## Section 1: Capped stops -/

/-- The bytes from `start` up to `stop`, if the two are in this order and all of the bytes are
there. -/
def Bytes.slice? (bytes : Bytes) (start stop : Nat) : Option Bytes :=
  if start ≤ stop ∧ stop ≤ bytes.length then some ((bytes.take stop).drop start) else none

/-- A field whose stop is capped ends past any bytes that can be held, so the capped stop cuts out
what the exact one does. -/
theorem Bytes.slice?_cappedStop {bytes : Bytes} (h : bytes.length < 0x8000000000000000)
    (f : Field) : bytes.slice? f.offset.toNat f.cappedStop.toNat =
      bytes.window? f.offset.toNat f.width.toNat := by
  have hstop : f.offset.toNat + f.width.toNat = f.stop := rfl
  rw [slice?, window?, hstop, f.toNat_cappedStop]
  by_cases hfits : f.stop ≤ bytes.length
  · have huncapped : min f.stop 0xffffffffffffffff = f.stop := Nat.min_eq_left (by omega)
    rw [huncapped, if_pos ⟨f.offset_le_stop, hfits⟩, if_pos hfits, List.drop_take, ← hstop,
      Nat.add_sub_cancel_left]
  · rw [if_neg (by omega), if_neg hfits]

/-! ## Section 2: The bytes that count -/

namespace LocatedBlock

/-- Bytes of a field in two blocks of the same name are extracted alike, if there are as many bytes
of either block or the field is inside both. -/
theorem extract_congr (hname : there.block.name = here.block.name)
    (hlength : there.bytes.length = here.bytes.length)
    (hwindow : ∀ i, f.offset.toNat ≤ i → i < f.stop → there.bytes[i]? = here.bytes[i]?) :
    there.extract f = here.extract f := by
  have hsame : there.window? f = here.window? f := Bytes.window?_congr (by rw [hlength]) hwindow
  rw [extract, extract, hsame, hname, hlength]

/-- A value stays the same if its bytes do, whatever block they are in. -/
theorem extract_eq_ok_of_window (hv : here.extract f = .ok v) (hfits : f.stop ≤ there.bytes.length)
    (hwindow : ∀ i, f.offset.toNat ≤ i → i < f.stop → there.bytes[i]? = here.bytes[i]?) :
    there.extract f = .ok v := by
  obtain ⟨encoding, window, hkind, hhere, hshows⟩ := extract_eq_ok_iff.1 hv
  have hfits' : f.stop ≤ here.bytes.length := (Bytes.window?_eq_some_iff.1 hhere).1
  have hsame : there.window? f = here.window? f :=
    Bytes.window?_congr (iff_of_true hfits hfits') hwindow
  exact extract_eq_ok_iff.2 ⟨encoding, window, hkind, hsame.trans hhere, hshows⟩

end LocatedBlock

/-! ## Section 3: Single bytes and characters of a value -/

section Characters

variable {encoding : TextEncoding} {window : Bytes}

theorem FieldValue.Shows.length_text (h : v.Shows f encoding window) :
    v.text.length = v.raw.length := by
  rw [h.text, String.length_ofList, List.length_map]

theorem FieldValue.Shows.getElem?_text (h : v.Shows f encoding window) (i : Nat)
    (hi : i < v.raw.length) : v.text.toList[i]? =
      if isControl (encoding.decodeByte v.raw[i]) then some '.'
      else some (encoding.decodeByte v.raw[i]) := by
  rw [h.text, String.toList_ofList, List.getElem?_map, List.getElem?_eq_getElem hi]
  exact apply_ite some _ _ _

end Characters

/-! ## Section 4: The outcome -/

namespace LocatedBlock

/-- What is extracted from any bytes for any field.  It is a fault if the field is not text, and
another one if it is text that ends past the bytes, the sum of offset and width being exact.
Otherwise there is a value.  Its bytes are those of the field up to the blanks and zeros at the end,
and its text has one character for each of them: the one that the byte stands for, or a point for a
control character.  Bytes outside the field do not count, and it makes no difference that the stop
of the field is capped. -/
theorem extract_exact (here : LocatedBlock) (f : Field) :
    (here.extract f = .error (.notPrintable here.block.name f.name) ↔ f.isText = false) ∧
    (here.extract f = .error
        (.outOfRange here.block.name f.name f.offset f.width here.bytes.length) ↔
      f.isText = true ∧ here.bytes.length < f.offset.toNat + f.width.toNat) ∧
    (∀ encoding, f.kind = .text encoding →
      f.offset.toNat + f.width.toNat ≤ here.bytes.length →
      ∃ v, here.extract f = .ok v ∧ v.name = f.name ∧ v.width = f.width ∧
        (∃ fill, (here.bytes.drop f.offset.toNat).take f.width.toNat = v.raw ++ fill ∧
          ∀ byte ∈ fill, byte = 0 ∨ byte = encoding.blank) ∧
        (∀ byte ∈ v.raw.getLast?, byte ≠ 0 ∧ byte ≠ encoding.blank) ∧
        v.text.length = v.raw.length ∧
        ∀ i (hi : i < v.raw.length), v.text.toList[i]? =
          if isControl (encoding.decodeByte v.raw[i]) then some '.'
          else some (encoding.decodeByte v.raw[i])) ∧
    (∀ there : LocatedBlock, there.block.name = here.block.name →
      there.bytes.length = here.bytes.length →
      (∀ i, f.offset.toNat ≤ i → i < f.stop → there.bytes[i]? = here.bytes[i]?) →
      there.extract f = here.extract f) ∧
    (∀ (there : LocatedBlock) v, here.extract f = .ok v → f.stop ≤ there.bytes.length →
      (∀ i, f.offset.toNat ≤ i → i < f.stop → there.bytes[i]? = here.bytes[i]?) →
      there.extract f = .ok v) ∧
    (here.bytes.length < 0x8000000000000000 →
      here.bytes.slice? f.offset.toNat f.cappedStop.toNat = here.window? f) := by
  refine ⟨?_, ?_, ?_, fun there => extract_congr, fun there v => extract_eq_ok_of_window,
    fun hlength => Bytes.slice?_cappedStop hlength f⟩
  · simp [extract_eq_error_iff]
  · simp [extract_eq_error_iff, Field.stop]
  · intro encoding hkind hfits
    have hwindow := Bytes.window?_eq_some_iff.2 ⟨hfits, rfl⟩
    have hshows := FieldValue.shows_ofWindow f encoding
      ((here.bytes.drop f.offset.toNat).take f.width.toNat)
    exact ⟨_, extract_eq_ok_iff.2 ⟨encoding, _, hkind, hwindow, hshows⟩, rfl, rfl,
      hshows.raw.fill, hshows.raw.solid, hshows.length_text, hshows.getElem?_text⟩

/-- More bytes than the block has, and among them text with a blank and a zero inside and three
bytes of mixed fill behind it. -/
def mixedFill : LocatedBlock :=
  ⟨⟨"B", 4, []⟩, 0, [0xc5, 0xc1, 0x40, 0x00, 0xc2, 0x40, 0x00, 0x40, 0xc5]⟩

/-- The text ends with the last byte that is not fill, also in a larger block of which other bytes
and fewer have been read.  The last field would end at 1 if the sum were not exact. -/
theorem extract_exact_mixedFill :
    mixedFill.extract ⟨"T", 1, 7, .text .ebcdic⟩ =
      .ok ⟨"T", 7, [0xc1, 0x40, 0x00, 0xc2], "A .B"⟩ ∧
    LocatedBlock.extract ⟨⟨"C", 64, []⟩, 16, [0x00, 0xc1, 0x40, 0x00, 0xc2, 0x40, 0x00, 0x40]⟩
      ⟨"T", 1, 7, .text .ebcdic⟩ = .ok ⟨"T", 7, [0xc1, 0x40, 0x00, 0xc2], "A .B"⟩ ∧
    mixedFill.extract ⟨"L", 1, 4, .link⟩ = .error (.notPrintable "B" "L") ∧
    mixedFill.extract ⟨"F", 0xffffffffffffffff, 2, .text .ascii⟩ =
      .error (.outOfRange "B" "F" 0xffffffffffffffff 2 9) := by
  have hv : mixedFill.extract ⟨"T", 1, 7, .text .ebcdic⟩ =
      .ok ⟨"T", 7, [0xc1, 0x40, 0x00, 0xc2], "A .B"⟩ := by decide +kernel
  -- the second block has the same bytes in the field, but another name, length and end
  obtain ⟨-, -, -, -, hthere, -⟩ := extract_exact mixedFill ⟨"T", 1, 7, .text .ebcdic⟩
  obtain ⟨hlink, -⟩ := extract_exact mixedFill ⟨"L", 1, 4, .link⟩
  obtain ⟨-, hfar, -⟩ := extract_exact mixedFill ⟨"F", 0xffffffffffffffff, 2, .text .ascii⟩
  exact ⟨hv, hthere _ _ hv (by decide) (by decide), hlink.2 rfl, hfar.2 ⟨rfl, by decide⟩⟩

end LocatedBlock

end IplReport
