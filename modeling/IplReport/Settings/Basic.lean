import IplReport.Block.Reposition
import IplReport.Catalog.Zos
import IplReport.Memory.AddressingMode

/-!
# Settings

Settings say how storage is addressed, where the chain of control blocks starts, how text is
encoded, and which text fields are somewhere else than they usually are.
-/

namespace IplReport

/-- Another place for a text field. -/
structure Placement where
  block : String
  field : String
  offset : UInt64
  width : UInt64
  deriving DecidableEq, Repr

/-- What can be set; each setting has a value for when nothing is said about it. -/
structure Settings where
  mode : AddressingMode := .amode31
  /-- The address of the prefixed save area. -/
  rootAddress : UInt64 := 0
  encoding : TextEncoding := .ebcdic
  /-- Other places for text fields, in the order in which they are applied. -/
  placements : List Placement := []
  deriving DecidableEq, Repr

namespace Settings

/-- Moves a field in the first block of the name that is given for it. -/
def applyPlacement (p : Placement) : List Block → Except LayoutError (List Block)
  | [] => .error (.unknownBlock p.block)
  | b :: rest =>
    if b.name == p.block then do
      return (← b.reposition p.field p.offset p.width) :: rest
    else do
      return b :: (← applyPlacement p rest)

/-- The catalog of the z/OS control blocks as the settings change it.  Fields are moved one
after the other, and only the result is checked. -/
def catalog (s : Settings) : Except LayoutError Catalog := do
  let usual := Zos.blocks s.encoding
  Catalog.ofBlocks (← s.placements.foldlM (fun blocks p => applyPlacement p blocks) usual)

end Settings

end IplReport
