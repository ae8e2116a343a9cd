import IplReport.Block.Field
import IplReport.Block.LayoutError
import IplReport.Text.Numeral

/-!
# Control blocks

A control block is described by its name, the number of bytes that must be readable for it,
and its fields in the order in which they are declared.
-/

namespace IplReport

/-- The description of a control block. -/
structure Block where
  /-- The name, unique in a catalog. -/
  name : String
  /-- The number of bytes that must be readable. -/
  size : UInt64
  /-- The fields, in order of declaration. -/
  fields : List Field
  deriving DecidableEq, Repr

namespace Block

/-! ## Section 1: Describing a block field by field -/

/-- A block without fields. -/
def ofSize (name : String) (size : UInt64) : Block :=
  ⟨name, size, []⟩

/-- The block with one more field at the end. -/
def withField (b : Block) (f : Field) : Block :=
  { b with fields := b.fields ++ [f] }

/-- The block with one more range of padding, which is named for its place. -/
def reserved (b : Block) (offset width : UInt64) : Block :=
  b.withField ⟨b.name ++ "+" ++ hexUpper offset.toNat, offset, width, .padding⟩

/-- The block with one more link, four bytes wide. -/
def link (b : Block) (name : String) (offset : UInt64) : Block :=
  b.withField ⟨name, offset, 4, .link⟩

/-- The block with one more text field. -/
def text (b : Block) (name : String) (offset width : UInt64) (encoding : TextEncoding) : Block :=
  b.withField ⟨name, offset, width, .text encoding⟩

/-! ## Section 2: Finding a field -/

/-- The first field of a given name. -/
def field? (b : Block) (name : String) : Option Field :=
  b.fields.find? fun f => f.name == name

/-- The first field of a given name, or the fault that there is none. -/
def field (b : Block) (name : String) : Except LayoutError Field :=
  match b.field? name with
  | some f => .ok f
  | none => .error (.unknownField b.name name)

end Block

end IplReport
