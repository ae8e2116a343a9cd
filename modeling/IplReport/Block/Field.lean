import IplReport.Text.Encoding

/-!
# Fields of a control block

A field is a named byte range of a control block together with what the bytes hold.  Offsets
and widths are 64-bit numbers; where a field stops is computed exactly, since the sum of the
two need not fit 64 bits.
-/

namespace IplReport

/-- What the bytes of a field hold. -/
inductive FieldKind where
  /-- Bytes without a meaning here. -/
  | padding
  /-- The big-endian address of another control block. -/
  | link
  /-- Text of fixed width, padded with fill. -/
  | text (encoding : TextEncoding)
  deriving DecidableEq, Repr

def FieldKind.encoding? : FieldKind → Option TextEncoding
  | text encoding => some encoding
  | padding => none
  | link => none

/-- A named byte range of a control block. -/
structure Field where
  /-- The name, unique in its block. -/
  name : String
  /-- Distance from the start of the block. -/
  offset : UInt64
  width : UInt64
  kind : FieldKind
  deriving DecidableEq, Repr

namespace Field

/-- One past the last byte of the field. -/
def stop (f : Field) : Nat :=
  f.offset.toNat + f.width.toNat

/-- One past the last byte of the field, or the highest 64-bit number where that is less. -/
def cappedStop (f : Field) : UInt64 :=
  UInt64.ofNat (min f.stop 0xffffffffffffffff)

/-- Whether two fields have a byte in common, each being taken to end below the highest 64-bit
offset. -/
def overlaps (f g : Field) : Bool :=
  f.offset < g.cappedStop && g.offset < f.cappedStop

def isText (f : Field) : Bool :=
  f.kind.encoding?.isSome

def moveTo (f : Field) (offset width : UInt64) : Field :=
  { f with offset := offset, width := width }

end Field

end IplReport
