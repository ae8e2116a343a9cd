/-!
# Byte strings

The three things that are done with the bytes of a control block: a window is cut out of them,
a window of them is overwritten, and they are read as a big-endian number.
-/

namespace IplReport

abbrev Bytes := List UInt8

namespace Bytes

/-! ## Section 1: Windows -/

/-- The `width` bytes from `offset` on, if all of them are there. -/
def window? (bytes : Bytes) (offset width : Nat) : Option Bytes :=
  if offset + width ≤ bytes.length then some ((bytes.drop offset).take width) else none

/-- A window is had exactly if it ends inside the bytes. -/
theorem window?_eq_some_iff {bytes window : Bytes} {offset width : Nat} :
    bytes.window? offset width = some window ↔
      offset + width ≤ bytes.length ∧ (bytes.drop offset).take width = window := by
  simp [window?]

/-- A window has the width that is asked for. -/
theorem length_of_window? {bytes window : Bytes} {offset width : Nat}
    (h : bytes.window? offset width = some window) : window.length = width := by
  obtain ⟨hfits, rfl⟩ := window?_eq_some_iff.1 h
  simp only [List.length_take, List.length_drop]
  omega

/-! ## Section 2: Overwriting -/

/-- The bytes with `patch` written over those from `offset` on. -/
def overlay (bytes : Bytes) (offset : Nat) (patch : Bytes) : Bytes :=
  bytes.take offset ++ patch ++ bytes.drop (offset + patch.length)

/-- Overwriting a window leaves the number of bytes as it is. -/
theorem length_overlay {bytes patch : Bytes} {offset : Nat}
    (h : offset + patch.length ≤ bytes.length) :
    (bytes.overlay offset patch).length = bytes.length := by
  simp only [overlay, List.length_append, List.length_take, List.length_drop]
  omega

/-! ## Section 3: Numbers -/

/-- The number that the bytes write with the most significant byte first. -/
def bigEndian (bytes : Bytes) : Nat :=
  bytes.foldl (fun value byte => value * 256 + byte.toNat) 0

/-- The address that the bytes hold, if there are four or eight of them. -/
def address? (bytes : Bytes) : Option UInt64 :=
  if bytes.length = 4 ∨ bytes.length = 8 then some (UInt64.ofNat bytes.bigEndian) else none

end Bytes

end IplReport
