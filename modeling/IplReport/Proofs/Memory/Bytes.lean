import IplReport.Block.Field
import IplReport.Memory.Bytes
import Mathlib.Algebra.Group.Nat.Defs
import Mathlib.Data.List.Induction

/-!
# Windows and addresses in byte strings

What a cut of a cut is, what is in a window that has been written over, and how large a number the
bytes of a link can hold.  A link is four or eight bytes wide, so the number it holds always fits an
address and reading it loses nothing.
-/

namespace IplReport.Bytes

/-! ## Section 1: Windows -/

theorem window?_eq_none_iff {bytes : Bytes} {offset width : Nat} :
    bytes.window? offset width = none ↔ bytes.length < offset + width := by
  simp [window?]

/-- A window inside a window is a window of the whole. -/
theorem window?_of_window? {bytes outer : Bytes} {offset width start count : Nat}
    (houter : bytes.window? offset width = some outer) (hfits : start + count ≤ width) :
    bytes.window? (offset + start) count = outer.window? start count := by
  obtain ⟨hbound, rfl⟩ := window?_eq_some_iff.1 houter
  have hleft : offset + start + count ≤ bytes.length := by omega
  have hright : start + count ≤ ((bytes.drop offset).take width).length := by
    simp only [List.length_take, List.length_drop]
    omega
  rw [window?, window?, if_pos hleft, if_pos hright]
  congr 1
  rw [List.drop_take, List.take_take, List.drop_drop]
  congr 1
  omega

/-! ## Section 2: Single bytes of a window and of an overlay -/

section SingleBytes

variable {bytes bytes' window patch : Bytes} {offset width i : Nat}

theorem getElem?_window? (h : bytes.window? offset width = some window) (hi : i < width) :
    window[i]? = bytes[offset + i]? := by
  obtain ⟨-, rfl⟩ := window?_eq_some_iff.1 h
  simp [hi]

theorem getElem?_overlay (h : offset + patch.length ≤ bytes.length) :
    (bytes.overlay offset patch)[i]? =
      if offset ≤ i ∧ i < offset + patch.length then patch[i - offset]? else bytes[i]? := by
  have hlength : (bytes.take offset).length = offset := by
    rw [List.length_take]
    omega
  rw [overlay, List.append_assoc]
  -- before the patch, in it and behind it
  rcases Nat.lt_or_ge i offset with hbefore | hbehind
  · rw [if_neg (by omega), List.getElem?_append_left (by omega), List.getElem?_take, if_pos hbefore]
  · rw [List.getElem?_append_right (by omega), hlength]
    rcases Nat.lt_or_ge i (offset + patch.length) with hinside | hafter
    · rw [if_pos ⟨hbehind, hinside⟩, List.getElem?_append_left (by omega)]
    · rw [if_neg (by omega), List.getElem?_append_right (by omega), List.getElem?_drop]
      congr 1
      omega

/-- Byte strings that have the same bytes in a window, or both end before it does, have the same
window. -/
theorem window?_congr (hfits : offset + width ≤ bytes.length ↔ offset + width ≤ bytes'.length)
    (h : ∀ i, offset ≤ i → i < offset + width → bytes[i]? = bytes'[i]?) :
    bytes.window? offset width = bytes'.window? offset width := by
  rw [window?, window?]
  simp only [← hfits]
  refine if_congr Iff.rfl (congrArg some (List.ext_getElem? fun i => ?_)) rfl
  rcases Nat.lt_or_ge i width with hinside | hbehind
  · simp only [List.getElem?_take, if_pos hinside, List.getElem?_drop]
    exact h (offset + i) (by omega) (by omega)
  · simp only [List.getElem?_take, if_neg (Nat.not_lt.2 hbehind)]

/-- What has been written over a window is what is then there. -/
theorem window?_overlay (h : offset + patch.length ≤ bytes.length) :
    (bytes.overlay offset patch).window? offset patch.length = some patch := by
  have hlength : (bytes.take offset).length = offset := List.length_take_of_le (by omega)
  rw [window?_eq_some_iff, length_overlay h, overlay, List.append_assoc, List.drop_left' hlength,
    List.take_left]
  exact ⟨h, rfl⟩

end SingleBytes

/-! ## Section 3: Numbers -/

theorem bigEndian_concat (bytes : Bytes) (byte : UInt8) :
    bigEndian (bytes ++ [byte]) = bigEndian bytes * 256 + byte.toNat := by
  simp [bigEndian, List.foldl_append]

/-- A number of `n` bytes is less than the `n`-th power of 256. -/
theorem bigEndian_lt (bytes : Bytes) : bigEndian bytes < 256 ^ bytes.length := by
  -- the last byte is the least significant one, so the induction goes from the end
  induction bytes using List.reverseRecOn with
  | nil => simp [bigEndian]
  | append_singleton bytes byte ih =>
    have hbyte : byte.toNat < 256 := byte.toNat_lt
    rw [bigEndian_concat, List.length_append, List.length_singleton, Nat.pow_succ]
    omega

/-- The last `width` bytes of a number, with the most significant byte first. -/
def encode : Nat → Nat → Bytes
  | 0, _ => []
  | width + 1, value => encode width (value / 256) ++ [UInt8.ofNat value]

@[simp] theorem length_encode (width value : Nat) : (encode width value).length = width := by
  induction width generalizing value with
  | zero => rfl
  | succ width ih => simp [encode, ih]

/-- A number is read back if it has no more bytes than are written. -/
theorem bigEndian_encode {width value : Nat} (h : value < 256 ^ width) :
    bigEndian (encode width value) = value := by
  induction width generalizing value with
  | zero =>
    have hzero : value = 0 := by simpa using h
    rw [hzero]
    rfl
  | succ width ih =>
    -- the other bytes write what is left of the number without its last byte
    have hrest : value / 256 < 256 ^ width := by
      rw [Nat.pow_succ] at h
      omega
    rw [encode, bigEndian_concat, ih hrest, UInt8.toNat_ofNat']
    omega

/-- The field `link` of a block with these bytes was read and holds the address `value`. -/
def HoldsAddress (bytes : Bytes) (link : Field) (value : UInt64) : Prop :=
  ∃ word, bytes.window? link.offset.toNat link.width.toNat = some word ∧
    (word.length = 4 ∨ word.length = 8) ∧ word.bigEndian = value.toNat

/-- Bytes hold an address exactly if they are as many as an address has and write it. -/
theorem address?_eq_some_iff {word : Bytes} {value : UInt64} :
    word.address? = some value ↔
      (word.length = 4 ∨ word.length = 8) ∧ word.bigEndian = value.toNat := by
  rw [address?]
  split
  case isTrue hlength =>
    -- eight bytes at most, so that the number is not cut off
    have hfits : word.bigEndian < 2 ^ 64 := by
      have hlt := bigEndian_lt word
      rcases hlength with hfour | height
      · rw [hfour] at hlt
        omega
      · rw [height] at hlt
        omega
    rw [Option.some_inj, ← UInt64.toNat_inj, UInt64.toNat_ofNat_of_lt' hfits]
    exact ⟨fun h => ⟨hlength, h⟩, fun h => h.2⟩
  case isFalse hlength =>
    simp [hlength]

end IplReport.Bytes
