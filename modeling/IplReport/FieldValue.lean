import IplReport.Chain.Walk

/-!
# Values of text fields

Text fields have no terminator: their text is followed by fill up to the width of the field.
The value of a field is what comes before that fill.
-/

namespace IplReport

/-! ## Section 1: Faults -/

/-- Why a field has no value. -/
inductive ExtractionError where
  /-- The field is not inside the bytes of the block. -/
  | outOfRange (block field : String) (offset width : UInt64) (available : Nat)
  | notPrintable (block field : String)
  deriving DecidableEq, Repr

def ExtractionError.message : ExtractionError → String
  | outOfRange block field offset width available =>
    s!"field {block}.{field} ({offset}+{width}) exceeds the {available} available bytes"
  | notPrintable block field => s!"field {block}.{field} is not a printable field"

/-! ## Section 2: Values -/

/-- The value of a text field. -/
structure FieldValue where
  name : String
  width : UInt64
  /-- The bytes of the field without the fill at their end. -/
  raw : Bytes
  /-- The text that these bytes stand for. -/
  text : String
  deriving DecidableEq, Repr

/-- The bytes without the fill at their end. -/
def trimFill (encoding : TextEncoding) (bytes : Bytes) : Bytes :=
  (bytes.reverse.dropWhile encoding.isFill).reverse

/-- The character that is shown for a byte; a point is shown for control characters. -/
def shownChar (encoding : TextEncoding) (byte : UInt8) : Char :=
  let c := encoding.decodeByte byte
  if isControl c then '.' else c

/-- The value of a field that holds the given bytes. -/
def FieldValue.ofWindow (f : Field) (encoding : TextEncoding) (window : Bytes) : FieldValue :=
  let raw := trimFill encoding window
  ⟨f.name, f.width, raw, String.ofList (raw.map (shownChar encoding))⟩

def LocatedBlock.extract (here : LocatedBlock) (f : Field) : Except ExtractionError FieldValue :=
  match f.kind with
  | .text encoding =>
    match here.window? f with
    | some window => .ok (.ofWindow f encoding window)
    | none =>
      .error (.outOfRange here.block.name f.name f.offset f.width here.bytes.length)
  | _ => .error (.notPrintable here.block.name f.name)

end IplReport
